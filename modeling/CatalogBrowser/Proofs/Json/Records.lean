import CatalogBrowser.Json.Basic

/-!
A value as a structure with known members, read off the value itself.

An object has a member by its name and may have others, but no known name twice; an array has it by
its position and may end early.
-/

namespace CatalogBrowser.Json

/-- A value that can stand for the structure with those members. -/
inductive IsRecord (names : List String) : Json → Prop
  | object (members : List (String × Json))
      (once : ∀ name ∈ names, (members.map Prod.fst).count name ≤ 1) :
      IsRecord names (.object members)
  | array (items : List Json) (fits : items.length ≤ names.length) :
      IsRecord names (.array items)

def field? (position : Nat) (name : String) : Json → Option Json
  | .object members => members.lookup name
  | .array items => items[position]?
  | .null | .bool _ | .number _ | .string _ => none

section

variable {names : List String} {name : String}

theorem lookup_filter_contains {members : List (String × Json)} (known : name ∈ names) :
    (members.filter fun member => names.contains member.1).lookup name = members.lookup name := by
  induction members with
  | nil => rfl
  | cons member rest ih =>
      obtain ⟨own, value⟩ := member
      by_cases same : name = own
      · subst same
        simp [known]
      · rw [lookup_cons_of_ne same, ← ih, List.filter_cons]
        split
        · exact lookup_cons_of_ne same
        · rfl

theorem nodup_filter_contains_iff {members : List (String × Json)} :
    ((members.filter fun member => names.contains member.1).map Prod.fst).Nodup ↔
      ∀ name ∈ names, (members.map Prod.fst).count name ≤ 1 := by
  have keys : (members.filter fun member => names.contains member.1).map Prod.fst =
      (members.map Prod.fst).filter names.contains := by rw [List.filter_map]; rfl
  rw [keys, List.nodup_iff_count]
  refine forall_congr' fun name => ?_
  by_cases known : name ∈ names
  · rw [List.count_filter (List.contains_iff_mem.mpr known), forall_prop_of_true known]
  · have absent : name ∉ (members.map Prod.fst).filter names.contains := fun inside =>
      known (List.contains_iff_mem.mp (List.mem_filter.mp inside).2)
    simp [List.count_eq_zero_of_not_mem absent, known]

theorem lookup_zip_of_getElem? {items : List Json} {position : Nat} (nodup : names.Nodup)
    (named : names[position]? = some name) :
    (names.zip items).lookup name = items[position]? := by
  induction names generalizing items position with
  | nil => simp at named
  | cons first rest ih =>
      obtain ⟨fresh, nodupRest⟩ := List.nodup_cons.mp nodup
      cases items with
      | nil => rfl
      | cons item later =>
          cases position with
          | zero =>
              obtain rfl : first = name := by simpa using named
              exact List.lookup_cons_self
          | succ position =>
              have other : name ≠ first := fun same =>
                fresh (same ▸ List.mem_of_getElem? named)
              rw [List.zip_cons_cons, lookup_cons_of_ne other, ih nodupRest named,
                List.getElem?_cons_succ]

theorem isSome_record?_iff {json : Json} : (json.record? names).isSome ↔ json.IsRecord names := by
  cases json with
  | object members =>
      rw [record?, Option.isSome_ite, nodup_filter_contains_iff]
      exact ⟨.object members, fun | .object _ once => once⟩
  | array items =>
      rw [record?, Option.isSome_ite]
      exact ⟨.array items, fun | .array _ fits => fits⟩
  | null | bool _ | number _ | string _ => exact iff_of_false nofun nofun

theorem lookup_of_record? {json : Json} {record : List (String × Json)} {position : Nat}
    (view : json.record? names = some record) (nodup : names.Nodup)
    (named : names[position]? = some name) :
    record.lookup name = json.field? position name := by
  cases json with
  | object members =>
      obtain ⟨_, same⟩ := Option.ite_none_right_eq_some.mp view
      obtain rfl := Option.some.inj same
      exact lookup_filter_contains (List.mem_of_getElem? named)
  | array items =>
      obtain ⟨_, same⟩ := Option.ite_none_right_eq_some.mp view
      obtain rfl := Option.some.inj same
      exact lookup_zip_of_getElem? nodup named
  | null | bool _ | number _ | string _ => simp [record?] at view

theorem record?_cases (nodup : names.Nodup) (json : Json) :
    (json.record? names = none ∧ ¬ json.IsRecord names) ∨
      ∃ record, json.record? names = some record ∧ json.IsRecord names ∧
        ∀ position name, names[position]? = some name →
          record.lookup name = json.field? position name := by
  cases view : json.record? names with
  | none =>
      refine .inl ⟨rfl, ?_⟩
      rw [← isSome_record?_iff, view]
      exact nofun
  | some record =>
      have shape := isSome_record?_iff.mp (Option.isSome_of_eq_some view)
      exact .inr ⟨record, rfl, shape, fun _ _ named => lookup_of_record? view nodup named⟩

end

end CatalogBrowser.Json
