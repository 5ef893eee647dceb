import CatalogBrowser.Error

/-!
Which level a user holds on each feature.

A view checks its feature before it makes any request.  A feature that nobody has granted is
closed.
-/

namespace CatalogBrowser

structure Permissions where
  granted : Feature → Option AccessLevel := fun _ => none

namespace Permissions

def empty : Permissions := {}

def grant (held : Permissions) (feature : Feature) (level : AccessLevel) : Permissions where
  granted := fun asked => if asked = feature then some level else held.granted asked

def uniform (level : AccessLevel) : Permissions where
  granted := fun _ => some level

def level (held : Permissions) (feature : Feature) : AccessLevel :=
  (held.granted feature).getD .noAccess

def permits (held : Permissions) (feature : Feature) (required : AccessLevel) : Bool :=
  required.rank ≤ (held.level feature).rank

def demand (held : Permissions) (feature : Feature) (required : AccessLevel) :
    Except Error Unit :=
  if held.permits feature required then .ok ()
  else .error (.permissionDenied feature.name required)

def ofMembers? (held : Permissions) : List (String × Json) → Option Permissions
  | [] => some held
  | (name, value) :: rest => do
    let feature ← Feature.ofName? name
    let level ← AccessLevel.ofJson? value
    (held.grant feature level).ofMembers? rest

def ofJson? (json : Json) : Option Permissions := json.members?.bind empty.ofMembers?

def toJson (held : Permissions) : Json :=
  .ofMembers (Feature.all.map fun feature =>
    (feature.name, (held.granted feature).map fun level => .string level.name))

end Permissions

end CatalogBrowser
