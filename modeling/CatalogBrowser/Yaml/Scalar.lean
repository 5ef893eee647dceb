import CatalogBrowser.Json.Reader
import CatalogBrowser.Yaml.Cursor

/-!
Scalars of YAML: plain, quoted and block ones, with their line folding.

A single line break inside a plain or quoted scalar stands for a blank; each further one stands
for itself.
-/

namespace CatalogBrowser.Yaml

structure Fold where
  blanks : List Char
  breaks : Nat

def Fold.text (fold : Fold) : List Char :=
  match fold.breaks with
  | 0 => fold.blanks
  | 1 => [' ']
  | count + 1 => List.replicate count '\n'

def foldOf (cursor : Cursor) : Fold × Cursor :=
  let gap := cursor.rest.takeWhile fun c => isBlank c || c = '\n'
  let fold : Fold := ⟨gap.takeWhile isBlank, gap.count '\n'⟩
  (fold, cursor.moveThrough gap.length)

/-! Plain scalars -/

def isFlowMark (c : Char) : Bool := c = ',' || c = '[' || c = ']' || c = '\x7b' || c = '\x7d'

def isIndicator (c : Char) : Bool := "-?:,[]\x7b\x7d#&*!|>'\"%@`".toList.contains c

def startsPlain (inFlow : Bool) : List Char → Bool
  | [] => false
  | c :: rest =>
    !(isBlank c || c = '\n' || isIndicator c) || (c = '-' && !endsWord rest) ||
      (!inFlow && (c = '?' || c = ':') && !endsWord rest)

def plainWord (inFlow : Bool) : List Char → List Char
  | [] => []
  | c :: rest =>
    if isBlank c || c = '\n' || (c = ':' && endsWord rest) || (inFlow && isFlowMark c) then []
    else c :: plainWord inFlow rest

/-- In a flow collection no mark may follow a colon inside a word. -/
def hasStrayColon (word rest : List Char) : Bool :=
  match word with
  | [] => false
  | [c] => c = ':' && !endsWord rest
  | c :: next :: more => (c = ':' && next = '?') || hasStrayColon (next :: more) rest

def plainFrom : Nat → Bool → Nat → List Char → Cursor → Option (List Char × Cursor)
  | 0, _, _, _, _ => none
  | fuel + 1, inFlow, indent, read, cursor =>
    let word := plainWord inFlow cursor.rest
    let read := read ++ word
    let after := cursor.move word.length
    if inFlow && hasStrayColon word after.rest then none
    else
      let (fold, next) := foldOf after
      let stops := next.rest.isEmpty || next.rest.head? = some '#' && next.rest.length <
          after.rest.length || (plainWord inFlow next.rest).isEmpty ||
        (0 < fold.breaks && (next.atEnd || (!inFlow && next.column < indent)))
      if stops then some (read, after)
      else plainFrom fuel inFlow indent (read ++ fold.text) next

/-! Quoted scalars -/

def singleFrom : Nat → List Char → Cursor → Option (List Char × Cursor)
  | 0, _, _ => none
  | fuel + 1, read, cursor =>
    if cursor.atMarker '-' || cursor.atMarker '.' then none
    else
      match cursor.rest with
      | [] => none
      | '\'' :: '\'' :: _ => singleFrom fuel ('\'' :: read) (cursor.move 2)
      | '\'' :: _ => some (read.reverse, cursor.move 1)
      | c :: _ =>
        if isBlank c || c = '\n' then
          let (fold, next) := foldOf cursor
          singleFrom fuel (fold.text.reverse ++ read) next
        else singleFrom fuel (c :: read) (cursor.move 1)

def escaped? (c : Char) : Option Char :=
  [('0', '\x00'), ('a', '\x07'), ('b', '\x08'), ('t', '\t'), ('\t', '\t'), ('n', '\n'),
    ('v', '\x0b'), ('f', '\x0c'), ('r', '\r'), ('e', '\x1b'), (' ', ' '), ('"', '"'), ('/', '/'),
    ('\\', '\\'), ('N', '\u0085'), ('_', '\u00a0'), ('L', '\u2028'), ('P', '\u2029')].lookup c

def escapeWidth? (c : Char) : Option Nat := [('x', 2), ('u', 4), ('U', 8)].lookup c

def charOf? (code : Nat) : Option Char := if code.isValidChar then some (Char.ofNat code) else none

def doubleFrom : Nat → List Char → Cursor → Option (List Char × Cursor)
  | 0, _, _ => none
  | fuel + 1, read, cursor =>
    if cursor.atMarker '-' || cursor.atMarker '.' then none
    else
      match cursor.rest with
      | [] => none
      | '"' :: _ => some (read.reverse, cursor.move 1)
      | '\\' :: '\n' :: _ =>
        let after := cursor.moveThrough 2
        let (fold, next) := foldOf after
        doubleFrom fuel (List.replicate fold.breaks '\n' ++ read) next
      | '\\' :: c :: rest =>
        match escapeWidth? c with
        | some width =>
          let digits := rest.take width
          if digits.length < width then none
          else
            match (natIn? 16 digits).bind charOf? with
            | some char => doubleFrom fuel (char :: read) (cursor.move (width + 2))
            | none => none
        | none =>
          match escaped? c with
          | some char => doubleFrom fuel (char :: read) (cursor.move 2)
          | none => none
      | c :: _ =>
        if isBlank c || c = '\n' then
          let (fold, next) := foldOf cursor
          doubleFrom fuel (fold.text.reverse ++ read) next
        else doubleFrom fuel (c :: read) (cursor.move 1)

/-! Block scalars -/

inductive Chomping where
  | strip
  | clip
  | keep
  deriving Repr, DecidableEq

structure BlockHeader where
  literal : Bool
  chomping : Chomping := .clip
  increment : Option Nat := none

def BlockHeader.ofMarks? (header : BlockHeader) : List Char → Option BlockHeader
  | [] => some header
  | '+' :: rest => BlockHeader.ofMarks? { header with chomping := .keep } rest
  | '-' :: rest => BlockHeader.ofMarks? { header with chomping := .strip } rest
  | c :: rest =>
    if '1' ≤ c && c ≤ '9' && header.increment.isNone then
      BlockHeader.ofMarks? { header with increment := some (c.toNat - '0'.toNat) } rest
    else none

def linesOf : List Char → List Char → List (List Char)
  | [], [] => []
  | line, [] => [line.reverse]
  | line, '\n' :: rest => line.reverse :: linesOf [] rest
  | line, c :: rest => linesOf (c :: line) rest

def leadingSpaces (line : List Char) : Nat := (line.takeWhile (· = ' ')).length

def isSpaceOnly (line : List Char) : Bool := line.all (· = ' ')

def detectIndent (least : Nat) (lines : List (List Char)) : Nat :=
  let blank := lines.takeWhile isSpaceOnly
  let first := (lines.dropWhile isSpaceOnly).head?
  (blank ++ first.toList).foldl (fun indent line => max indent (leadingSpaces line)) (max least 1)

/-- Joins the lines of a folded scalar; `pending` counts the line breaks since the last line. -/
def foldLines (pending : Nat) (spaced : Bool) : List (List Char) → List Char
  | [] => []
  | [] :: rest => foldLines (pending + 1) spaced rest
  | line :: rest =>
    let starts := (line.head?.map isBlank).getD false
    let gap :=
      if spaced || starts then List.replicate pending '\n'
      else if pending = 1 then [' ']
      else List.replicate (pending - 1) '\n'
    gap ++ line ++ foldLines 1 starts rest

def blockText (header : BlockHeader) (lines : List (List Char)) : List Char :=
  let ending := (lines.reverse.takeWhile List.isEmpty).length
  let body := lines.take (lines.length - ending)
  let joined :=
    if body.isEmpty then []
    else if header.literal then (body.intersperse ['\n']).flatten
    else
      let blank := (body.takeWhile List.isEmpty).length
      List.replicate blank '\n' ++ foldLines 0 true (body.drop blank)
  let breaks := match header.chomping, body.isEmpty with
    | .strip, _ => 0
    | .clip, true => 0
    | .clip, false => 1
    | .keep, true => ending
    | .keep, false => ending + 1
  joined ++ List.replicate breaks '\n'

def blockScalar? (indent : Nat) (cursor : Cursor) : Option (Yaml × Cursor) :=
  match cursor.rest with
  | mark :: rest =>
    let line := rest.takeWhile (· ≠ '\n')
    let marks := line.takeWhile fun c => !isBlank c && c ≠ '#'
    let remark := (line.drop marks.length).dropWhile isBlank
    if !(remark.isEmpty || remark.head? = some '#') then none
    else
      match BlockHeader.ofMarks? ⟨mark = '|', .clip, none⟩ marks with
      | none => none
      | some header =>
        let start := cursor.moveThrough (line.length + 2)
        let lines := linesOf [] start.rest
        let depth := match header.increment with
          | some increment => indent - 1 + increment
          | none => detectIndent indent lines
        let taken := lines.takeWhile fun line =>
          isSpaceOnly (line.take depth) && (depth ≤ line.length || isSpaceOnly line)
        let size := (taken.map fun line => line.length + 1).foldl (· + ·) 0
        let next := start.moveThrough size
        let text := blockText header (taken.map (·.drop depth))
        some (.scalar (if header.literal then .literal else .folded) none (String.ofList text),
          { next with fresh := true })
  | [] => none

end CatalogBrowser.Yaml
