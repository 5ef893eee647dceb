import CatalogBrowser.Yaml.Basic

/-!
A place in a YAML text.  Where a token may begin depends on its column and on whether it is the
first one on its line.
-/

namespace CatalogBrowser.Yaml

def isBlank (c : Char) : Bool := c = ' ' || c = '\t'

def endsWord (chars : List Char) : Bool :=
  match chars with
  | [] => true
  | c :: _ => isBlank c || c = '\n'

structure Cursor where
  rest : List Char
  line : Nat := 0
  column : Nat := 0
  fresh : Bool := true
  anchors : List (String × Yaml) := []
  handles : List (String × String) := [("!", "!"), ("!!", standardTag "")]

namespace Cursor

def move (cursor : Cursor) (count : Nat) : Cursor :=
  { cursor with
    rest := cursor.rest.drop count, column := cursor.column + count, fresh := false }

def moveThrough (cursor : Cursor) : Nat → Cursor
  | 0 => cursor
  | count + 1 =>
    match cursor.rest with
    | [] => cursor
    | '\n' :: rest =>
      let next : Cursor :=
        { cursor with rest, line := cursor.line + 1, column := 0, fresh := false }
      next.moveThrough count
    | _ :: rest =>
      let next : Cursor := { cursor with rest, column := cursor.column + 1, fresh := false }
      next.moveThrough count

def atMarker (cursor : Cursor) (mark : Char) : Bool :=
  cursor.column = 0 &&
    match cursor.rest with
    | a :: b :: c :: rest => a = mark && b = mark && c = mark && endsWord rest
    | _ => false

def atEnd (cursor : Cursor) : Bool :=
  cursor.rest.isEmpty || cursor.atMarker '-' || cursor.atMarker '.'

structure Gap where
  chars : List Char
  line : Nat
  column : Nat
  fresh : Bool

/-- Skips to the next token.  In block context a tab must not indent a line. -/
def Gap.skip (inFlow : Bool) (comment tabs : Bool) (line column : Nat) (fresh : Bool) :
    List Char → Gap
  | [] => ⟨[], line, column, fresh⟩
  | c :: rest =>
    if c = '\n' then Gap.skip inFlow false inFlow (line + 1) 0 true rest
    else if comment || c = ' ' || (c = '\t' && tabs) then
      Gap.skip inFlow comment tabs line (column + 1) fresh rest
    else if c = '#' then Gap.skip inFlow true tabs line (column + 1) fresh rest
    else ⟨c :: rest, line, column, fresh⟩

def skip (cursor : Cursor) (inFlow : Bool) : Cursor :=
  let gap := Gap.skip inFlow false (inFlow || !cursor.fresh) cursor.line cursor.column cursor.fresh
    cursor.rest
  { cursor with rest := gap.chars, line := gap.line, column := gap.column, fresh := gap.fresh }

def skipBlanks (cursor : Cursor) : Cursor :=
  let blanks := cursor.rest.takeWhile isBlank
  { cursor with
    rest := cursor.rest.dropWhile isBlank, column := cursor.column + blanks.length }

def atDash (cursor : Cursor) : Bool :=
  match cursor.rest with
  | '-' :: rest => endsWord rest
  | _ => false

def atColon (cursor : Cursor) : Bool :=
  match cursor.rest with
  | ':' :: rest => endsWord rest
  | _ => false

def atQuestion (cursor : Cursor) : Bool :=
  match cursor.rest with
  | '?' :: rest => endsWord rest
  | _ => false

end Cursor

end CatalogBrowser.Yaml
