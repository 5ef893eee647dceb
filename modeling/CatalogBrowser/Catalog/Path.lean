import CatalogBrowser.Error

/-!
Ids of catalog nodes, which name the way to a node: `catalog.schema.object`.
-/

namespace CatalogBrowser

structure NodePath where
  catalog : String
  schema : Option String := none
  object : Option String := none
  deriving Repr, DecidableEq

namespace NodePath

def cut (chars : List Char) : List Char × Option (List Char) :=
  (chars.takeWhile (· ≠ '.'), match chars.dropWhile (· ≠ '.') with
    | [] => none
    | _ :: rest => some rest)

def segments (chars : List Char) : List (List Char) :=
  match cut chars with
  | (catalog, none) => [catalog]
  | (catalog, some rest) =>
    match cut rest with
    | (schema, none) => [catalog, schema]
    | (schema, some object) => [catalog, schema, object]

def ofText (id : String) : Except Error NodePath :=
  let parts := segments id.toList
  if parts.any List.isEmpty then
    .error (.validation "catalog node id" ("`" ++ id ++ "` contains an empty segment"))
  else
    match parts.map String.ofList with
    | [] => .error (.validation "catalog node id" "empty id")
    | [catalog] => .ok { catalog }
    | [catalog, schema] => .ok { catalog, schema := some schema }
    | catalog :: schema :: object :: _ =>
      .ok { catalog, schema := some schema, object := some object }

end NodePath

end CatalogBrowser
