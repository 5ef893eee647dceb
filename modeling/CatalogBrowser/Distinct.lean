/-!
Lists that hold every item once.

`addNew` keeps the order in which items arrive; `insertOrdered` keeps a list sorted.  Where every
key is held once, looking a key up finds the one entry with it.
-/

namespace CatalogBrowser

variable {α : Type} [DecidableEq α]

def addNew (items : List α) (item : α) : List α :=
  if item ∈ items then items else items ++ [item]

def distinct (items : List α) : List α := items.foldl addNew []

def insertOrdered (before : α → α → Bool) (item : α) : List α → List α
  | [] => [item]
  | first :: rest =>
    if item = first then first :: rest
    else if before item first then item :: first :: rest
    else first :: insertOrdered before item rest

def sortedBy (before : α → α → Bool) (items : List α) : List α :=
  items.foldl (fun sorted item => insertOrdered before item sorted) []

theorem mem_addNew {items : List α} {item other : α} :
    other ∈ addNew items item ↔ other ∈ items ∨ other = item := by
  unfold addNew
  split
  · next present => exact ⟨Or.inl, fun either => either.elim id fun same => same ▸ present⟩
  · simp

theorem filter_ne_of_notMem {items : List α} {item : α} (absent : item ∉ items) :
    items.filter (fun other => other ≠ item) = items := by
  rw [List.filter_eq_self]
  intro other member
  simpa using fun same : other = item => absent (same ▸ member)

theorem nodup_addNew {items : List α} (nodup : items.Nodup) (item : α) :
    (addNew items item).Nodup := by
  unfold addNew
  split
  · exact nodup
  · next absent =>
    rw [List.nodup_append]
    refine ⟨nodup, by simp, ?_⟩
    intro first member second same equal
    simp only [List.mem_singleton] at same
    exact absent (same ▸ equal ▸ member)

theorem mem_foldl_addNew {items before : List α} {other : α} :
    other ∈ items.foldl addNew before ↔ other ∈ before ∨ other ∈ items := by
  induction items generalizing before with
  | nil => simp
  | cons item rest ih => rw [List.foldl_cons, ih, mem_addNew, List.mem_cons, or_assoc]

theorem nodup_foldl_addNew {items before : List α} (nodup : before.Nodup) :
    (items.foldl addNew before).Nodup := by
  induction items generalizing before with
  | nil => exact nodup
  | cons item rest ih => exact ih (nodup_addNew nodup item)

theorem mem_distinct {items : List α} {other : α} : other ∈ distinct items ↔ other ∈ items := by
  simp [distinct, mem_foldl_addNew]

theorem nodup_distinct (items : List α) : (distinct items).Nodup :=
  nodup_foldl_addNew List.nodup_nil

theorem mem_insertOrdered {before : α → α → Bool} {item other : α} {items : List α} :
    other ∈ insertOrdered before item items ↔ other = item ∨ other ∈ items := by
  induction items with
  | nil => simp [insertOrdered]
  | cons first rest ih =>
    simp only [insertOrdered]
    split
    · next same => subst same; simp
    · split
      · simp
      · simp only [List.mem_cons, ih]; exact or_left_comm

theorem pairwise_insertOrdered {before : α → α → Bool} {item : α} {items : List α}
    (transitive : ∀ a b c, before a b = true → before b c = true → before a c = true)
    (total : ∀ other ∈ items, other ≠ item → before item other = false → before other item = true)
    (sorted : items.Pairwise fun left right => before left right = true) :
    (insertOrdered before item items).Pairwise fun left right => before left right = true := by
  induction items with
  | nil => simp [insertOrdered]
  | cons first rest ih =>
    obtain ⟨firstBefore, restSorted⟩ := List.pairwise_cons.mp sorted
    simp only [insertOrdered]
    split
    · exact sorted
    · next different =>
      split
      · next earlier =>
        refine List.pairwise_cons.mpr ⟨?_, sorted⟩
        intro other member
        rcases List.mem_cons.mp member with rfl | later
        · exact earlier
        · exact transitive _ _ _ earlier (firstBefore other later)
      · next notEarlier =>
        have laterThanFirst : before first item = true :=
          total first (by simp) (Ne.symm different) (by simpa using notEarlier)
        refine List.pairwise_cons.mpr ⟨?_, ih (fun other member => total other (by simp [member]))
          restSorted⟩
        intro other member
        rcases mem_insertOrdered.mp member with rfl | old
        · exact laterThanFirst
        · exact firstBefore other old

theorem mem_foldl_insertOrdered {before : α → α → Bool} {items sorted : List α} {other : α} :
    other ∈ items.foldl (fun sorted item => insertOrdered before item sorted) sorted ↔
      other ∈ sorted ∨ other ∈ items := by
  induction items generalizing sorted with
  | nil => simp
  | cons item rest ih =>
    rw [List.foldl_cons, ih, mem_insertOrdered, List.mem_cons, or_comm (a := other = item),
      or_assoc]

theorem mem_sortedBy {before : α → α → Bool} {items : List α} {other : α} :
    other ∈ sortedBy before items ↔ other ∈ items := by
  simp [sortedBy, mem_foldl_insertOrdered]

theorem pairwise_foldl_insertOrdered {before : α → α → Bool} {all pending sorted : List α}
    (transitive : ∀ a b c, before a b = true → before b c = true → before a c = true)
    (total : ∀ a ∈ all, ∀ b ∈ all, a ≠ b → before b a = false → before a b = true)
    (pendingInside : ∀ item ∈ pending, item ∈ all) (sortedInside : ∀ item ∈ sorted, item ∈ all)
    (pairwise : sorted.Pairwise fun left right => before left right = true) :
    (pending.foldl (fun sorted item => insertOrdered before item sorted) sorted).Pairwise
      fun left right => before left right = true := by
  induction pending generalizing sorted with
  | nil => exact pairwise
  | cons item rest ih =>
    have itemInside := pendingInside item (by simp)
    refine ih (fun other member => pendingInside other (by simp [member])) ?_ ?_
    · intro other member
      rcases mem_insertOrdered.mp member with rfl | old
      · exact itemInside
      · exact sortedInside other old
    · exact pairwise_insertOrdered transitive
        (fun other member => total other (sortedInside other member) item itemInside) pairwise

theorem pairwise_sortedBy {before : α → α → Bool} {items : List α}
    (transitive : ∀ a b c, before a b = true → before b c = true → before a c = true)
    (total : ∀ a ∈ items, ∀ b ∈ items, a ≠ b → before b a = false → before a b = true) :
    (sortedBy before items).Pairwise fun left right => before left right = true :=
  pairwise_foldl_insertOrdered transitive total (fun _ member => member) (by simp)
    List.Pairwise.nil

section

variable {κ β : Type} [BEq κ] [LawfulBEq κ] {entries others : List (κ × β)} {key : κ} {item : β}

theorem lookup_cons_of_ne {entry : κ × β} (different : key ≠ entry.1) :
    (entry :: entries).lookup key = entries.lookup key := by
  rw [List.lookup_cons, beq_false_of_ne different]

theorem mem_of_lookup (found : entries.lookup key = some item) : (key, item) ∈ entries := by
  obtain ⟨before, after, parts, _⟩ := List.lookup_eq_some_iff.mp found
  simp [parts]

theorem lookup_of_mem_nodup (nodup : (entries.map Prod.fst).Nodup)
    (member : (key, item) ∈ entries) : entries.lookup key = some item := by
  induction entries with
  | nil => simp at member
  | cons entry rest ih =>
      obtain ⟨absent, restNodup⟩ := List.nodup_cons.mp nodup
      rcases List.mem_cons.mp member with same | later
      · subst same
        simp
      · have different : key ≠ entry.1 := by
          intro same
          exact absent (same ▸ List.mem_map_of_mem later)
        rw [lookup_cons_of_ne different]
        exact ih restNodup later

theorem lookup_perm (nodup : (entries.map Prod.fst).Nodup) (perm : entries.Perm others) :
    others.lookup key = entries.lookup key := by
  refine Option.ext fun item => ⟨fun found => ?_, fun found => ?_⟩
  · exact lookup_of_mem_nodup nodup (perm.mem_iff.mpr (mem_of_lookup found))
  · exact lookup_of_mem_nodup ((perm.map Prod.fst).nodup_iff.mp nodup)
      (perm.mem_iff.mp (mem_of_lookup found))

end

end CatalogBrowser
