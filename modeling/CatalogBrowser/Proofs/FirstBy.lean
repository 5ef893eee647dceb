import CatalogBrowser.Distinct
import Mathlib.Data.List.Basic
import Mathlib.Data.List.Induction
import Mathlib.Data.List.Nodup

/-!
The first item of every key: what stays of a list when each item is dropped whose key was taken
before.  Lists that are filled item by item, each only if its key is new, are lists of first items.
-/

namespace CatalogBrowser

variable {α β κ : Type} [DecidableEq κ]

def firstBy (key : α → κ) (taken : List κ) : List α → List α
  | [] => []
  | item :: rest =>
    if key item ∈ taken then firstBy key taken rest
    else item :: firstBy key (taken ++ [key item]) rest

section

variable {key : α → κ} {taken : List κ} {items : List α}

theorem foldl_eq_append_firstBy {add : List α → α → List α}
    (adds : ∀ kept item,
      add kept item = if key item ∈ kept.map key then kept else kept ++ [item])
    (items kept : List α) : items.foldl add kept = kept ++ firstBy key (kept.map key) items := by
  induction items generalizing kept with
  | nil => simp [firstBy]
  | cons item rest ih =>
      rw [List.foldl_cons, adds, firstBy]
      split
      · exact ih kept
      · rw [ih, List.map_append, List.append_assoc]
        rfl

theorem firstBy_singleton (item : α) :
    firstBy key taken [item] = if key item ∈ taken then [] else [item] := by
  simp [firstBy]

theorem firstBy_append (first second : List α) : firstBy key taken (first ++ second) =
    firstBy key taken first ++ firstBy key (taken ++ (firstBy key taken first).map key) second := by
  induction first generalizing taken with
  | nil => simp [firstBy]
  | cons item rest ih =>
      rw [List.cons_append, firstBy, firstBy]
      split
      · exact ih
      · rw [ih, List.cons_append, List.map_cons, List.append_assoc]
        rfl

theorem mem_map_firstBy {name : κ} : name ∈ (firstBy key taken items).map key ↔
    name ∈ items.map key ∧ name ∉ taken := by
  induction items generalizing taken with
  | nil => simp [firstBy]
  | cons item rest ih =>
      rw [firstBy, List.map_cons, List.mem_cons]
      split
      · next present =>
        rw [ih]
        refine and_congr_left fun fresh => (or_iff_right ?_).symm
        rintro rfl
        exact fresh present
      · next absent =>
        rw [List.map_cons, List.mem_cons, ih, List.mem_append, List.mem_singleton]
        by_cases same : name = key item
        · subst same
          simp [absent]
        · simp [same]

theorem nodup_map_firstBy : ((firstBy key taken items).map key).Nodup := by
  induction items generalizing taken with
  | nil => simp [firstBy]
  | cons item rest ih =>
      rw [firstBy]
      split
      · exact ih
      · refine List.nodup_cons.mpr ⟨fun again => ?_, ih⟩
        exact (mem_map_firstBy.mp again).2 (by simp)

theorem firstBy_sublist : (firstBy key taken items).Sublist items := by
  induction items generalizing taken with
  | nil => exact List.Sublist.slnil
  | cons item rest ih =>
      rw [firstBy]
      split
      · exact ih.cons item
      · exact ih.cons_cons item

theorem firstBy_eq_filter (nodup : (items.map key).Nodup) :
    firstBy key taken items = items.filter fun item => key item ∉ taken := by
  induction items generalizing taken with
  | nil => rfl
  | cons item rest ih =>
      obtain ⟨once, restNodup⟩ := List.nodup_cons.mp nodup
      rw [firstBy, List.filter_cons]
      by_cases present : key item ∈ taken
      · simp [present, ih restNodup]
      · simp only [present, if_false, not_false_eq_true, decide_true, if_true, ih restNodup]
        refine congrArg (item :: ·) (List.filter_congr fun other member => ?_)
        have different : key other ≠ key item :=
          fun same => once (same ▸ List.mem_map_of_mem member)
        simp [different]

theorem firstBy_eq_self (nodup : (items.map key).Nodup) (fresh : ∀ item ∈ items, key item ∉ taken) :
    firstBy key taken items = items := by
  rw [firstBy_eq_filter nodup, List.filter_eq_self]
  exact fun item member => decide_eq_true (fresh item member)

omit [DecidableEq κ] in
theorem firstBy_eq_self_of_names {ι : Type} [DecidableEq ι] (taken : List κ) {code : κ → ι}
    (injective : Function.Injective code) {name : α → ι} {keys : List κ}
    (names : items.map name = keys.map code) (nodup : keys.Nodup)
    (apart : ∀ key ∈ keys, key ∉ taken) : firstBy name (taken.map code) items = items := by
  refine firstBy_eq_self (names ▸ nodup.map injective) fun item member => ?_
  have named : name item ∈ keys.map code := names ▸ List.mem_map_of_mem member
  obtain ⟨key, listed, same⟩ := List.mem_map.mp named
  rw [← same, List.mem_map_of_injective injective]
  exact apart key listed

theorem mem_firstBy_iff_alone {item : α} (member : item ∈ items) (fresh : key item ∉ taken) :
    item ∈ firstBy key taken items ↔
      ∀ other ∈ firstBy key taken items, key other = key item → other = item := by
  constructor
  · intro kept other kept' same
    exact List.inj_on_of_nodup_map nodup_map_firstBy kept' kept same
  · intro alone
    have named := mem_map_firstBy.mpr ⟨List.mem_map_of_mem member, fresh⟩
    obtain ⟨other, kept, same⟩ := List.mem_map.mp named
    exact alone other kept same ▸ kept

theorem find?_of_mem_firstBy {item : α} (kept : item ∈ firstBy key taken items) :
    items.find? (fun other => key other = key item) = some item := by
  induction items generalizing taken with
  | nil => simp [firstBy] at kept
  | cons first rest ih =>
      have fresh := (mem_map_firstBy.mp (List.mem_map_of_mem kept)).2
      rw [firstBy] at kept
      split at kept
      · next present =>
        rw [List.find?_cons_of_neg, ih kept]
        rw [decide_eq_true_eq]
        intro same
        exact fresh (same ▸ present)
      · rcases List.mem_cons.mp kept with rfl | later
        · exact List.find?_cons_of_pos (by simp)
        · have others := (mem_map_firstBy.mp (List.mem_map_of_mem later)).2
          rw [List.find?_cons_of_neg, ih later]
          rw [decide_eq_true_eq]
          intro same
          exact others (by simp [same])

theorem pairwise_idxOf_firstBy : (firstBy key taken items).Pairwise fun earlier later =>
    (items.map key).idxOf (key earlier) < (items.map key).idxOf (key later) := by
  induction items generalizing taken with
  | nil => exact List.Pairwise.nil
  | cons item rest ih =>
      have place : ∀ {other taken}, other ∈ firstBy key taken rest → key item ∈ taken →
          ((item :: rest).map key).idxOf (key other) = (rest.map key).idxOf (key other) + 1 := by
        intro other taken kept present
        have fresh := (mem_map_firstBy.mp (List.mem_map_of_mem kept)).2
        exact List.idxOf_cons_ne _ fun same => fresh (same ▸ present)
      have shifted : ∀ {taken}, key item ∈ taken →
          (firstBy key taken rest).Pairwise fun earlier later =>
            ((item :: rest).map key).idxOf (key earlier) <
              ((item :: rest).map key).idxOf (key later) := by
        intro taken present
        refine ih.imp_of_mem fun {first second} firstKept secondKept less => ?_
        rw [place firstKept present, place secondKept present]
        exact Nat.succ_lt_succ less
      rw [firstBy]
      split
      · next present => exact shifted present
      · refine List.pairwise_cons.mpr ⟨fun other kept => ?_, shifted (by simp)⟩
        rw [place kept (by simp), List.map_cons, List.idxOf_cons_self]
        exact Nat.succ_pos _

theorem firstBy_congr {other : List κ}
    (alike : ∀ item ∈ items, key item ∈ taken ↔ key item ∈ other) :
    firstBy key taken items = firstBy key other items := by
  induction items generalizing taken other with
  | nil => rfl
  | cons item rest ih =>
      rw [firstBy, firstBy]
      simp only [alike item List.mem_cons_self]
      split
      · exact ih fun next member => alike next (List.mem_cons_of_mem _ member)
      · rw [ih]
        intro next member
        simp only [List.mem_append, alike next (List.mem_cons_of_mem _ member)]

theorem firstBy_filter {test : α → Bool} (leads : ∀ item ∈ items, test item = true →
      key item ∉ taken → ∀ first, items.find? (fun other => key other = key item) = some first →
        test first = true) :
    firstBy key taken (items.filter test) = (firstBy key taken items).filter test := by
  induction items generalizing taken with
  | nil => rfl
  | cons item rest ih =>
      have later : ∀ taken', (∀ other ∈ rest, test other = true → key other ∉ taken' →
            key other ∉ taken ∧ key item ≠ key other) →
          firstBy key taken' (rest.filter test) = (firstBy key taken' rest).filter test := by
        intro taken' apart
        refine ih fun other member passes fresh first found => ?_
        obtain ⟨untaken, different⟩ := apart other member passes fresh
        refine leads other (List.mem_cons_of_mem _ member) passes untaken first ?_
        rwa [List.find?_cons_of_neg (by simpa using different)]
      rw [List.filter_cons, firstBy]
      by_cases present : key item ∈ taken
      · have kept := later taken fun other _ _ fresh =>
          ⟨fresh, fun same => fresh (same ▸ present)⟩
        rw [if_pos present, ← kept]
        split
        · rw [firstBy, if_pos present]
        · rfl
      · have kept := later (taken ++ [key item]) fun other _ _ fresh => by
          rw [List.mem_append, not_or, List.mem_singleton] at fresh
          exact ⟨fresh.1, Ne.symm fresh.2⟩
        rw [if_neg present, List.filter_cons, ← kept]
        cases passes : test item with
        | true => rw [if_pos rfl, if_pos rfl, firstBy, if_neg present]
        | false =>
            rw [if_neg Bool.false_ne_true, if_neg Bool.false_ne_true]
            -- the key of an item that fails is not taken, but no later item that passes has it
            refine firstBy_congr fun other member => ?_
            obtain ⟨inRest, passed⟩ := List.mem_filter.mp member
            have different : key other ≠ key item := by
              intro same
              have leading := leads other (List.mem_cons_of_mem _ inRest) passed (same ▸ present)
                item (List.find?_cons_of_pos (by simpa using same.symm))
              exact Bool.false_ne_true (passes.symm.trans leading)
            simp [different]

theorem map_firstBy (name : β → κ) (view : α → β) (taken : List κ) (items : List α) :
    (firstBy (fun item => name (view item)) taken items).map view =
      firstBy name taken (items.map view) := by
  induction items generalizing taken with
  | nil => rfl
  | cons item rest ih =>
      rw [List.map_cons, firstBy, firstBy]
      split
      · exact ih taken
      · rw [List.map_cons, ih]

omit [DecidableEq κ] in
theorem map_mapIdx_of_named {place : Nat → α → β} {name : β → κ}
    (named : ∀ index item, name (place index item) = key item) (items : List α) :
    (items.mapIdx place).map name = items.map key := by
  refine List.ext_getElem (by simp) fun index _ _ => ?_
  simp only [List.getElem_map, List.getElem_mapIdx, named]

/-- Numbered items, under names that tell their keys apart, keep the numbers of the first items. -/
theorem firstBy_mapIdx {ι : Type} [DecidableEq ι] (key : α → κ) {code : κ → ι}
    (injective : Function.Injective code) (place : Nat → α → β) {name : β → ι}
    (named : ∀ index item, name (place index item) = code (key item)) (taken : List κ)
    (items : List α) : firstBy name (taken.map code) (items.mapIdx place) =
      (firstBy key taken items).map fun item => place ((items.map key).idxOf (key item)) item := by
  induction items using List.reverseRecOn with
  | nil => rfl
  | append_singleton items last ih =>
      have names : ((firstBy key taken items).map fun item =>
          place ((items.map key).idxOf (key item)) item).map name =
            ((firstBy key taken items).map key).map code := by
        rw [List.map_map, List.map_map]
        exact List.map_congr_left fun item _ => named _ item
      rw [List.mapIdx_concat, firstBy_append, firstBy_append, List.map_append, ih, names,
        ← List.map_append]
      congr 1
      · refine List.map_congr_left fun item member => ?_
        have listed : key item ∈ items.map key :=
          List.mem_map_of_mem (firstBy_sublist.subset member)
        rw [List.map_append, List.idxOf_append_of_mem listed]
      · rw [firstBy_singleton, firstBy_singleton, named]
        simp only [List.mem_map_of_injective injective]
        split
        · rfl
        · next fresh =>
          have absent : key last ∉ items.map key := by
            intro listed
            rw [List.mem_append, mem_map_firstBy, not_or] at fresh
            exact fresh.2 ⟨listed, fresh.1⟩
          simp [List.idxOf_append_of_notMem absent]

end

theorem firstBy_id [DecidableEq α] (taken items : List α) :
    firstBy id taken items = (items.filter fun item => item ∉ taken).eraseDups := by
  induction items generalizing taken with
  | nil => rfl
  | cons item rest ih =>
      rw [firstBy, List.filter_cons, id_eq]
      by_cases present : item ∈ taken
      · simp [present, ih]
      · simp only [present, if_false, not_false_eq_true, decide_true, if_true, ih,
          List.eraseDups_cons, List.filter_filter]
        refine congrArg (fun others => item :: List.eraseDups others) (List.filter_congr ?_)
        intro other _
        by_cases same : other = item <;> simp [same]

theorem foldl_addNew [DecidableEq α] (items kept : List α) :
    items.foldl addNew kept = kept ++ firstBy id kept items := by
  have adds : ∀ kept (item : α),
      addNew kept item = if id item ∈ kept.map id then kept else kept ++ [item] := by
    simp [addNew]
  have added := foldl_eq_append_firstBy adds items kept
  rwa [List.map_id] at added

theorem distinct_eq_eraseDups [DecidableEq α] (items : List α) :
    distinct items = items.eraseDups := by
  rw [distinct, foldl_addNew, firstBy_id]
  simp

theorem nodup_eraseDups [DecidableEq α] (items : List α) : items.eraseDups.Nodup := by
  rw [← distinct_eq_eraseDups]
  exact nodup_distinct items

theorem distinct_append [DecidableEq α] {items : List α} (nodup : items.Nodup) (more : List α) :
    distinct (items ++ more) = items ++ firstBy id items more := by
  have own : firstBy id [] items = items :=
    firstBy_eq_self (by rwa [List.map_id]) fun _ _ => List.not_mem_nil
  rw [distinct, List.foldl_append, foldl_addNew items, own, List.nil_append, foldl_addNew]

end CatalogBrowser
