import CatalogBrowser.Yaml.Property

/-!
Reading a YAML text that holds at most one document.

Block mappings and sequences are told by their columns: `indent` is the least column at which a
value may begin on a line of its own, `dash` the least one for the items of a sequence.
-/

namespace CatalogBrowser.Yaml

def isMissing (inFlow : Bool) (cursor : Cursor) : Bool :=
  match cursor.rest with
  | [] => true
  | c :: _ =>
    c = '\n' || c = '#' || cursor.atColon ||
      (inFlow && (c = ',' || c = ']' || c = '\x7d' || c = ':'))

mutual

def readFlow : Nat → Bool → Nat → Cursor → Option (Yaml × Cursor)
  | 0, _, _, _ => none
  | fuel + 1, inFlow, indent, cursor =>
    match Properties.at? inFlow cursor with
    | none => none
    | some (properties, next) =>
      if properties = {} then readContent fuel inFlow indent cursor
      else if isMissing inFlow next then some (properties.apply (nothing, next))
      else if next.rest.head? = some '*' then none
      else (readContent fuel inFlow indent next).map properties.apply

def readContent : Nat → Bool → Nat → Cursor → Option (Yaml × Cursor)
  | 0, _, _, _ => none
  | fuel + 1, inFlow, indent, cursor =>
    match cursor.rest with
    | '"' :: _ =>
      (doubleFrom cursor.rest.length [] (cursor.move 1)).map fun (text, next) =>
        (.scalar .quoted none (String.ofList text), next)
    | '\'' :: _ =>
      (singleFrom cursor.rest.length [] (cursor.move 1)).map fun (text, next) =>
        (.scalar .quoted none (String.ofList text), next)
    | '[' :: _ => readFlowItems fuel indent [] (cursor.move 1)
    | '\x7b' :: _ => readFlowEntries fuel indent [] (cursor.move 1)
    | '*' :: _ =>
      (anchor? cursor).bind fun (name, next) => (cursor.anchors.lookup name).map (·, next)
    | _ =>
      if startsPlain inFlow cursor.rest then
        (plainFrom cursor.rest.length inFlow indent [] cursor).map fun (text, next) =>
          (.scalar .plain none (String.ofList text), next)
      else none

def readFlowItems : Nat → Nat → List Yaml → Cursor → Option (Yaml × Cursor)
  | 0, _, _, _ => none
  | fuel + 1, indent, read, cursor =>
    let cursor := cursor.skip true
    match cursor.rest with
    | ']' :: _ => some (.sequence read.reverse, cursor.move 1)
    | _ =>
      match readFlowPair fuel indent cursor with
      | none => none
      | some (key, value?, next) =>
        let item := match value? with
          | some value => .mapping [(key, value)]
          | none => key
        match next.rest with
        | ',' :: _ => readFlowItems fuel indent (item :: read) (next.move 1)
        | ']' :: _ => some (.sequence (item :: read).reverse, next.move 1)
        | _ => none

def readFlowEntries : Nat → Nat → List (Yaml × Yaml) → Cursor → Option (Yaml × Cursor)
  | 0, _, _, _ => none
  | fuel + 1, indent, read, cursor =>
    let cursor := cursor.skip true
    match cursor.rest with
    | '\x7d' :: _ => some (.mapping read.reverse, cursor.move 1)
    | _ =>
      match readFlowPair fuel indent cursor with
      | none => none
      | some (key, value?, next) =>
        let entry := (key, value?.getD nothing)
        match next.rest with
        | ',' :: _ => readFlowEntries fuel indent (entry :: read) (next.move 1)
        | '\x7d' :: _ => some (.mapping (entry :: read).reverse, next.move 1)
        | _ => none

/-- Reads a value of a flow collection, and the one after its colon if there is one.  A question
mark may announce the first. -/
def readFlowPair : Nat → Nat → Cursor → Option (Yaml × Option Yaml × Cursor)
  | 0, _, _ => none
  | fuel + 1, indent, cursor =>
    let asked := cursor.rest.head? = some '?'
    let cursor := if asked then (cursor.move 1).skip true else cursor
    let key? :=
      if cursor.rest.head? = some ':' || (asked && isMissing true cursor) then
        some (nothing, cursor)
      else readFlow fuel true indent cursor
    match key? with
    | none => none
    | some (key, next) =>
      let next := next.skip true
      match next.rest with
      | ':' :: _ =>
        let start := (next.move 1).skip true
        if [some ',', some ']', some '\x7d'].contains start.rest.head? then
          some (key, some nothing, start)
        else (readFlow fuel true indent start).map fun (value, next) =>
          (key, some value, next.skip true)
      | _ => some (key, none, next)

end

def lineIsOver (cursor : Cursor) : Bool := cursor.atEnd || cursor.fresh

mutual

def readBlock : Nat → Nat → Nat → Bool → Cursor → Option (Yaml × Cursor)
  | 0, _, _, _, _ => none
  | fuel + 1, indent, dash, compact, cursor =>
    let start := cursor.skip false
    let mayNest := compact || start.fresh
    if start.atEnd then some (nothing, start)
    else if start.atDash then
      if start.fresh && start.column < dash then some (nothing, start)
      else if mayNest then readSequence fuel start.column [] start
      else none
    else if start.fresh && start.column < indent then some (nothing, start)
    else if start.atQuestion || start.atColon then
      if mayNest then readEntry fuel start.column [] start else none
    else
      match Properties.at? false start with
      | none => none
      | some (properties, content) =>
        let later := content.skip false
        if start.line < later.line then
          (readBlock fuel indent dash compact later).map properties.apply
        else if content.rest.head? = some '|' || content.rest.head? = some '>' then
          (blockScalar? indent content).map properties.apply
        else
          match readFlow fuel false indent start with
          | none => none
          | some (yaml, next) =>
            let colon := next.skipBlanks
            if colon.atColon && next.line = start.line then
              if mayNest then readMapping fuel start.column false [] yaml colon else none
            else some (yaml, next)

def readSequence : Nat → Nat → List Yaml → Cursor → Option (Yaml × Cursor)
  | 0, _, _, _ => none
  | fuel + 1, column, read, cursor =>
    match readBlock fuel (column + 1) (column + 1) true (cursor.move 1) with
    | none => none
    | some (item, next) =>
      let next := next.skip false
      if !lineIsOver next then none
      else if next.atEnd || next.column < column then some (.sequence (item :: read).reverse, next)
      else if column < next.column then none
      else if next.atDash then readSequence fuel column (item :: read) next
      else some (.sequence (item :: read).reverse, next)

def readMapping : Nat → Nat → Bool → List (Yaml × Yaml) → Yaml → Cursor → Option (Yaml × Cursor)
  | 0, _, _, _, _, _ => none
  | fuel + 1, column, compact, read, key, cursor =>
    match readBlock fuel (column + 1) column compact (cursor.move 1) with
    | none => none
    | some (value, next) => readEntries fuel column ((key, value) :: read) (next.skip false)

def readEntries : Nat → Nat → List (Yaml × Yaml) → Cursor → Option (Yaml × Cursor)
  | 0, _, _, _ => none
  | fuel + 1, column, read, cursor =>
    if !lineIsOver cursor then none
    else if cursor.atEnd || cursor.column < column then some (.mapping read.reverse, cursor)
    else if column < cursor.column || cursor.atDash then none
    else readEntry fuel column read cursor

/-- Reads the entries of a block mapping; a key after a question mark may be any value. -/
def readEntry : Nat → Nat → List (Yaml × Yaml) → Cursor → Option (Yaml × Cursor)
  | 0, _, _, _ => none
  | fuel + 1, column, read, cursor =>
    if cursor.atQuestion then
      match readBlock fuel (column + 1) column true (cursor.move 1) with
      | none => none
      | some (key, next) =>
        let next := next.skip false
        if next.fresh && next.column = column && next.atColon then
          readMapping fuel column true read key next
        else readEntries fuel column ((key, nothing) :: read) next
    else if cursor.atColon then readMapping fuel column true read nothing cursor
    else
      match readFlow fuel false (column + 1) cursor with
      | none => none
      | some (key, next) =>
        let colon := next.skipBlanks
        if colon.atColon && next.line = cursor.line then
          readMapping fuel column false read key colon
        else none

end

def isPrintable (c : Char) : Bool :=
  let code := c.toNat
  c = '\t' || c = '\n' || (0x20 ≤ code && code ≤ 0x7E) ||
    (0xA0 ≤ code && code ≤ 0xFFFD) || 0x10000 ≤ code

def unifyBreaks : List Char → List Char
  | [] => []
  | '\r' :: '\n' :: rest => '\n' :: unifyBreaks rest
  | '\r' :: rest => '\n' :: unifyBreaks rest
  | '\u0085' :: rest => '\n' :: unifyBreaks rest
  | c :: rest => c :: unifyBreaks rest

def skipEnds : Nat → Cursor → Cursor
  | 0, cursor => cursor
  | fuel + 1, cursor =>
    let cursor := cursor.skip false
    if cursor.atMarker '.' then skipEnds fuel (cursor.move 3) else cursor

def read (text : String) : Option Yaml := do
  let chars := unifyBreaks text.toList
  let first : Cursor := match chars with
    | '\ufeff' :: rest => { rest, column := 1 }
    | _ => { rest := chars }
  if !chars.all isPrintable then none
  let size := chars.length + 1
  let (directives, start) ← readDirectives size [] first
  let marked := start.atMarker '-'
  if !marked && (start.atMarker '.' || !directives.isEmpty) then none
  let (yaml, next) ← readBlock (6 * size + 16) 0 0 false (if marked then start.move 3 else start)
  if (skipEnds size next).rest.isEmpty then some yaml else none

end CatalogBrowser.Yaml
