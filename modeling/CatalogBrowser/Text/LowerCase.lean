import CatalogBrowser.Text.CaseTable

/-!
Lower-casing of whole texts.

Every character is mapped on its own, except the capital sigma: it becomes `ς` at the end of a
word and `σ` elsewhere.  One capital, `İ`, becomes two characters.
-/

namespace CatalogBrowser.Text

def lowerChar (c : Char) : List Char :=
  if c = 'İ' then ['i', '\u0307']
  else match caseRuns.findSome? (·.lower? c.toNat) with
    | some code => [Char.ofNat code]
    | none => [c]

def meetsCased (chars : List Char) : Bool :=
  match chars.dropWhile fun c => inRanges caseIgnorableRanges c.toNat with
  | [] => false
  | c :: _ => inRanges casedRanges c.toNat

/-- A sigma ends its word when a letter stands before it and none after it.  `before` lists the
preceding characters, nearest first. -/
def endsWord (before after : List Char) : Bool :=
  meetsCased before && !meetsCased after

def lowerAfter (before : List Char) : List Char → List Char
  | [] => []
  | c :: after =>
    (if c = 'Σ' then [if endsWord before after then 'ς' else 'σ'] else lowerChar c) ++
      lowerAfter (c :: before) after

def lowerCase (text : String) : String :=
  String.ofList (lowerAfter [] text.toList)

end CatalogBrowser.Text
