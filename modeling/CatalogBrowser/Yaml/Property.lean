import CatalogBrowser.Yaml.Scalar

/-!
What stands in front of values and documents: the anchor and the tag of a value, and the
directives of a document.

A tag is a full name, or a handle and a suffix.  A handle is short for the beginning of a name, and
a directive may give it another meaning.
-/

namespace CatalogBrowser.Yaml

structure Properties where
  anchor : Option String := none
  tag : Option String := none
  deriving Repr, DecidableEq

def isNameChar (c : Char) : Bool := c.isAlphanum || c = '_' || c = '-'

def anchor? (cursor : Cursor) : Option (String × Cursor) :=
  let name := (cursor.rest.drop 1).takeWhile isNameChar
  let next := cursor.move (name.length + 1)
  let ends := endsWord next.rest || (next.rest.head?.map "?:,]\x7d%@`".toList.contains).getD false
  if name.isEmpty || !ends then none else some (String.ofList name, next)

def isTagChar (c : Char) : Bool := isNameChar c || ";/?:@&=+$.%!~*'()".toList.contains c

def tag? (cursor : Cursor) : Option (String × Cursor) :=
  match cursor.rest.drop 1 with
  | '<' :: rest =>
    let name := rest.takeWhile fun c => isTagChar c || c = ',' || c = '[' || c = ']'
    if name.isEmpty || (rest.drop name.length).head? ≠ some '>' then none
    else some (String.ofList name, cursor.move (name.length + 3))
  | rest =>
    let word := rest.takeWhile isNameChar
    match rest.drop word.length with
    | '!' :: more =>
      let suffix := more.takeWhile isTagChar
      if suffix.isEmpty then none
      else (cursor.handles.lookup ("!" ++ String.ofList word ++ "!")).map fun name =>
        (name ++ String.ofList suffix, cursor.move (word.length + suffix.length + 2))
    | _ =>
      let suffix := rest.takeWhile isTagChar
      if suffix.isEmpty then some ("!", cursor.move 1)
      else (cursor.handles.lookup "!").map fun name =>
        (name ++ String.ofList suffix, cursor.move (suffix.length + 1))

namespace Properties

def read? (inFlow : Bool) : Nat → Properties → Cursor → Option (Properties × Cursor)
  | 0, _, _ => none
  | fuel + 1, properties, cursor =>
    let gap (cursor : Cursor) : Cursor := if inFlow then cursor.skip true else cursor.skipBlanks
    match cursor.rest, properties.anchor, properties.tag with
    | '&' :: _, none, _ => do
      let (name, next) ← anchor? cursor
      read? inFlow fuel { properties with anchor := some name } (gap next)
    | '!' :: _, _, none => do
      let (name, next) ← tag? cursor
      if endsWord next.rest || (inFlow && next.rest.head? = some ',') then
        read? inFlow fuel { properties with tag := some name } (gap next)
      else none
    | '&' :: _, some _, _ => none
    | '!' :: _, _, some _ => none
    | _, _, _ => some (properties, cursor)

def at? (inFlow : Bool) (cursor : Cursor) : Option (Properties × Cursor) :=
  read? inFlow 3 {} cursor

def apply (properties : Properties) : Yaml × Cursor → Yaml × Cursor
  | (yaml, cursor) =>
    let yaml := match yaml with
      | .scalar style tag text => .scalar style (properties.tag.or tag) text
      | yaml => yaml
    (yaml, { cursor with
      anchors := (properties.anchor.map (·, yaml)).toList ++ cursor.anchors })

end Properties

/-! Directives -/

def wordsOf (line : String) : List String :=
  ((line.splitToList isBlank).filter (· ≠ "")).takeWhile fun word => !word.startsWith "#"

def isHandle (word : String) : Bool :=
  match word.toList with
  | ['!'] => true
  | '!' :: rest => rest.getLast? = some '!' && rest.dropLast.all isNameChar
  | _ => false

/-- Reads the directives in front of a document: its version and the meaning of handles.  `known`
holds those that were given. -/
def readDirectives : Nat → List String → Cursor → Option (List String × Cursor)
  | 0, _, _ => none
  | fuel + 1, known, cursor =>
    let start := cursor.skip false
    if start.column = 0 && start.rest.head? = some '%' then
      let line := start.rest.takeWhile (· ≠ '\n')
      let next := start.moveThrough (line.length + 1)
      match wordsOf (String.ofList line) with
      | ["%YAML", version] =>
        if ["1.1", "1.2"].contains version && !known.contains "%YAML" then
          readDirectives fuel ("%YAML" :: known) { next with fresh := true }
        else none
      | ["%TAG", handle, name] =>
        if isHandle handle && !known.contains handle then
          readDirectives fuel (handle :: known)
            { next with fresh := true, handles := (handle, name) :: next.handles }
        else none
      | _ => none
    else some (known, start)

end CatalogBrowser.Yaml
