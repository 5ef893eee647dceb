import CatalogBrowser.Json.Basic

/-!
Reading back the members that were written.

What is read does not depend on the order in which members stand.  So the lemmas are about a value
after any rearrangement of its members, be it none at all or sorting them by name.
-/

namespace CatalogBrowser.Json

def present (fields : List (String × Option Json)) : List (String × Json) :=
  fields.filterMap fun field => field.2.map (field.1, ·)

theorem ofMembers_eq (fields : List (String × Option Json)) :
    ofMembers fields = .object (present fields) := rfl

theorem names_present_sublist (fields : List (String × Option Json)) :
    ((present fields).map Prod.fst).Sublist (fields.map Prod.fst) := by
  induction fields with
  | nil => exact .slnil
  | cons field rest ih =>
      obtain ⟨name, value⟩ := field
      cases value with
      | none => exact .cons name ih
      | some value => exact .cons_cons name ih

theorem lookup_eq_none_of_notMem {members : List (String × α)} {name : String}
    (absent : name ∉ members.map Prod.fst) : members.lookup name = none := by
  rw [List.lookup_eq_none_iff]
  intro member inside
  exact bne_iff_ne.mpr fun same => absent (same ▸ List.mem_map_of_mem inside)

theorem lookup_present {fields : List (String × Option Json)}
    (nodup : (fields.map Prod.fst).Nodup) (name : String) :
    (present fields).lookup name = (fields.lookup name).join := by
  induction fields with
  | nil => rfl
  | cons field rest ih =>
      obtain ⟨own, value⟩ := field
      obtain ⟨absent, nodupRest⟩ := List.nodup_cons.mp nodup
      by_cases same : name = own
      · subst same
        rw [List.lookup_cons_self]
        cases value with
        | none =>
            have missing : name ∉ (present rest).map Prod.fst :=
              fun member => absent ((names_present_sublist rest).subset member)
            exact lookup_eq_none_of_notMem missing
        | some value => exact List.lookup_cons_self
      · rw [lookup_cons_of_ne same, ← ih nodupRest]
        cases value with
        | none => rfl
        | some value => exact lookup_cons_of_ne same

/-- A function that may change the order of members, everywhere in a value, and nothing else. -/
structure Rearranges (arrange : Json → Json) : Prop where
  string : ∀ text, arrange (.string text) = .string text
  bool : ∀ value, arrange (.bool value) = .bool value
  array : ∀ items, arrange (.array items) = .array (items.map arrange)
  object : ∀ members, ∃ arranged, arrange (.object members) = .object arranged ∧
    arranged.Perm (members.map fun member => (member.1, arrange member.2))
  sorted : ∀ members, (members.Pairwise fun left right => left.1 < right.1) →
    arrange (.object members) = .object (members.map fun member => (member.1, arrange member.2))

theorem rearranges_id : Rearranges id where
  string _ := rfl
  bool _ := rfl
  array items := by rw [List.map_id]; rfl
  object members := ⟨members, rfl, by simp⟩
  sorted members _ := by simp

theorem sortedItems_eq (items : List Json) : sortedItems items = items.map sorted := by
  induction items with
  | nil => rfl
  | cons item rest ih => rw [sortedItems, ih, List.map_cons]

theorem sortedMembers_eq (members : List (String × Json)) :
    sortedMembers members = members.map fun member => (member.1, member.2.sorted) := by
  induction members with
  | nil => rfl
  | cons member rest ih => rw [sortedMembers, ih, List.map_cons]

theorem rearranges_sorted : Rearranges sorted where
  string _ := rfl
  bool _ := rfl
  array items := by rw [sorted, sortedItems_eq]
  object members := ⟨_, rfl, by rw [sortedMembers_eq]; exact List.mergeSort_perm _ _⟩
  sorted members ordered := by
    rw [sorted, sortedMembers_eq, List.mergeSort_of_pairwise]
    rw [List.pairwise_map]
    exact ordered.imp fun less => decide_eq_true (String.not_lt.mp (String.lt_asymm less))

theorem names_map (arrange : Json → Json) (members : List (String × Json)) :
    (members.map fun member => (member.1, arrange member.2)).map Prod.fst =
      members.map Prod.fst := by
  rw [List.map_map]
  rfl

theorem lookup_map (arrange : Json → Json) (members : List (String × Json)) (name : String) :
    (members.map fun member => (member.1, arrange member.2)).lookup name =
      (members.lookup name).map arrange := by
  induction members with
  | nil => rfl
  | cons member rest ih =>
      rw [List.map_cons, List.lookup_cons, List.lookup_cons, ih]
      cases name == member.1 <;> rfl

theorem Rearranges.exists_record {arrange : Json → Json} (rearranges : Rearranges arrange)
    {fields : List (String × Option Json)} {names : List String}
    (named : fields.map Prod.fst = names) (nodup : names.Nodup) :
    ∃ record, (arrange (ofMembers fields)).record? names = some record ∧
      ∀ name, record.lookup name = ((fields.lookup name).join).map arrange := by
  subst named
  obtain ⟨arranged, written, perm⟩ := rearranges.object (present fields)
  have sublist := names_present_sublist fields
  have permNames := perm.map Prod.fst
  rw [names_map] at permNames
  have nodupArranged : (arranged.map Prod.fst).Nodup :=
    permNames.nodup_iff.mpr (nodup.sublist sublist)
  have all : (arranged.filter fun member => (fields.map Prod.fst).contains member.1) =
      arranged := by
    rw [List.filter_eq_self]
    intro member inside
    have listed := permNames.subset (List.mem_map_of_mem inside)
    exact List.contains_iff_mem.mpr (sublist.subset listed)
  refine ⟨arranged, ?_, fun name => ?_⟩
  · rw [ofMembers_eq, written, record?, all, if_pos nodupArranged]
  · rw [← lookup_present nodup, ← lookup_map, lookup_perm nodupArranged perm]

section

variable {arrange : Json → Json} {α : Type}

theorem Rearranges.map_strings (rearranges : Rearranges arrange) (text : α → String)
    (value : Option α) : (value.map fun item => Json.string (text item)).map arrange =
      value.map fun item => Json.string (text item) := by
  cases value with
  | none => rfl
  | some item => exact congrArg some (rearranges.string (text item))

theorem Rearranges.array_strings (rearranges : Rearranges arrange) (text : α → String)
    (items : List α) : arrange (.array (items.map fun item => Json.string (text item))) =
      .array (items.map fun item => Json.string (text item)) := by
  rw [rearranges.array, List.map_map]
  exact congrArg Json.array (List.map_congr_left fun item _ => rearranges.string (text item))

end

section

variable {record : List (String × Json)} {name : String} {α : Type}

theorem required?_of_lookup {decode : Json → Option α} {json : Json} {value : α}
    (found : record.lookup name = some json) (reads : decode json = some value) :
    required? record name decode = some value := by
  rw [required?, found]
  exact reads

theorem withDefault?_of_lookup {decode : Json → Option α} {json : Json} {value default : α}
    (found : record.lookup name = some json) (reads : decode json = some value) :
    withDefault? record name default decode = some value := by
  rw [withDefault?, found]
  exact reads

theorem optional?_of_lookup {decode : Json → Option α} {encode : α → Json} {value : Option α}
    (found : record.lookup name = value.map encode) (notNull : ∀ value, encode value ≠ .null)
    (reads : ∀ value, decode (encode value) = some value) :
    optional? record name decode = some value := by
  rw [optional?, found]
  cases value with
  | none => rfl
  | some value =>
      rw [Option.map_some]
      split
      · next absent => cases absent
      · next null => exact absurd (Option.some.inj null) (notNull value)
      · next json _ same => rw [← Option.some.inj same, reads, Option.map_some]

theorem withDefault?_none_of_lookup {decode : Json → Option (Option α)} {encode : α → Json}
    {value : Option α} (found : record.lookup name = value.map encode)
    (reads : ∀ value, decode (encode value) = some (some value)) :
    withDefault? record name none decode = some value := by
  rw [withDefault?, found]
  cases value with
  | none => rfl
  | some value => exact reads value

end

end CatalogBrowser.Json
