import CatalogBrowser.Distinct

/-!
JSON values with the members of an object in the order in which they were written.

A name may occur more than once.  `Json.lastWins` keeps the last member of each name, and
`Json.record?` is the view of a value as a structure with known members, for which a repeated
member is a fault.
-/

namespace CatalogBrowser

/-- A number is whole when it was written without point and exponent and fits 64 bits. -/
inductive JsonNumber where
  | whole (value : Int)
  | real (value : Float)

inductive Json where
  | null
  | bool (value : Bool)
  | number (value : JsonNumber)
  | string (value : String)
  | array (items : List Json)
  | object (members : List (String × Json))

namespace Json

def ofNat (value : Nat) : Json := .number (.whole value)

def ofOption (encode : α → Json) : Option α → Json
  | none => .null
  | some value => encode value

def ofMembers (members : List (String × Option Json)) : Json :=
  .object (members.filterMap fun member => member.2.map (member.1, ·))

def text? : Json → Option String
  | .string value => some value
  | _ => none

def bool? : Json → Option Bool
  | .bool value => some value
  | _ => none

def real? : Json → Option Float
  | .number (.whole value) => some (Float.ofInt value)
  | .number (.real value) => some value
  | _ => none

def nat? : Json → Option Nat
  | .number (.whole value) => if 0 ≤ value then some value.toNat else none
  | _ => none

def items? : Json → Option (List Json)
  | .array items => some items
  | _ => none

def members? : Json → Option (List (String × Json))
  | .object members => some members
  | _ => none

/-- The member of that name, the last one if there are several. -/
def member? (json : Json) (name : String) : Option Json :=
  match json with
  | .object members => members.reverse.lookup name
  | _ => none

/-- The members with known names; an array gives them in the order of `names` and may end early.
Repeated names and surplus items are faults. -/
def record? (names : List String) : Json → Option (List (String × Json))
  | .object members =>
    let known := members.filter fun member => names.contains member.1
    if (known.map Prod.fst).Nodup then some known else none
  | .array items => if items.length ≤ names.length then some (names.zip items) else none
  | _ => none

def optional? (record : List (String × Json)) (name : String) (decode : Json → Option α) :
    Option (Option α) :=
  match record.lookup name with
  | none => some none
  | some .null => some none
  | some value => (decode value).map some

def withDefault? (record : List (String × Json)) (name : String) (default : α)
    (decode : Json → Option α) : Option α :=
  match record.lookup name with
  | none => some default
  | some value => decode value

def required? (record : List (String × Json)) (name : String) (decode : Json → Option α) :
    Option α :=
  (record.lookup name).bind decode

/-- The value of an enumeration without arguments: its name, or an object that maps the name to
`null`. -/
def choice? (named : String → Option α) : Json → Option α
  | .string name => named name
  | .object [(name, .null)] => named name
  | _ => none

def setMember (name : String) (value : Json) : List (String × Json) → List (String × Json)
  | [] => [(name, value)]
  | (key, old) :: rest =>
    if key = name then (name, value) :: rest else (key, old) :: setMember name value rest

mutual

def lastWins : Json → Json
  | .array items => .array (lastWinsItems items)
  | .object members => .object (lastWinsMembers [] members)
  | json => json

def lastWinsItems : List Json → List Json
  | [] => []
  | item :: rest => lastWins item :: lastWinsItems rest

def lastWinsMembers (before : List (String × Json)) : List (String × Json) → List (String × Json)
  | [] => before
  | (name, value) :: rest => lastWinsMembers (setMember name (lastWins value) before) rest

end

mutual

def depth : Json → Nat
  | .array items => depthItems items + 1
  | .object members => depthMembers members + 1
  | _ => 0

def depthItems : List Json → Nat
  | [] => 0
  | item :: rest => max (depth item) (depthItems rest)

def depthMembers : List (String × Json) → Nat
  | [] => 0
  | (_, value) :: rest => max (depth value) (depthMembers rest)

end

mutual

def sorted : Json → Json
  | .array items => .array (sortedItems items)
  | .object members =>
    .object ((sortedMembers members).mergeSort fun left right => left.1 ≤ right.1)
  | json => json

def sortedItems : List Json → List Json
  | [] => []
  | item :: rest => sorted item :: sortedItems rest

def sortedMembers : List (String × Json) → List (String × Json)
  | [] => []
  | (name, value) :: rest => (name, sorted value) :: sortedMembers rest

end

theorem sizeOf_lt_of_record? {names : List String} {json value : Json} {name : String}
    {record : List (String × Json)} (view : json.record? names = some record)
    (member : (name, value) ∈ record) : sizeOf value < sizeOf json := by
  unfold record? at view
  split at view
  · next members =>
    dsimp only at view
    split at view
    · simp only [Option.some.injEq] at view
      subst view
      have inside := List.sizeOf_lt_of_mem (List.mem_filter.mp member).1
      simp only [Prod.mk.sizeOf_spec, Json.object.sizeOf_spec] at *
      omega
    · simp at view
  · next items =>
    split at view
    · simp only [Option.some.injEq] at view
      subst view
      have inside := List.sizeOf_lt_of_mem (List.of_mem_zip member).2
      simp only [Json.array.sizeOf_spec] at *
      omega
    · simp at view
  · simp at view

end Json

end CatalogBrowser
