import CatalogBrowser.ConceptTree.Links
import Mathlib.Data.List.Basic
import Mathlib.Data.List.Nodup
import Mathlib.Data.List.Sort

/-!
Tables of links: what a table holds after links have been entered, and that the two directions of
a set of links are converse to each other.
-/

namespace CatalogBrowser

namespace LinkTable

@[simp] theorem under_ofOrder (order : List Iri) (iri : Iri) : (ofOrder order).under iri = [] := by
  unfold under ofOrder
  induction order with
  | nil => rfl
  | cons first rest ih =>
      rw [List.map_cons, List.lookup_cons]
      cases iri == first with
      | true => rfl
      | false => exact ih

theorem under_push (table : LinkTable) (key item iri : Iri) :
    (table.push key item).under iri =
      if iri = key then addNew (table.under key) item else table.under iri := by
  unfold under
  induction table with
  | nil =>
      by_cases same : iri = key
      · simp [push, same, addNew]
      · simp [push, same, List.lookup_cons, beq_false_of_ne same]
  | cons row rest ih =>
      rcases row with ⟨other, items⟩
      by_cases here : other = key
      · subst here
        by_cases same : iri = other
        · simp [push, same]
        · simp [push, same, List.lookup_cons, beq_false_of_ne same]
      · simp only [push, here, if_false, List.lookup_cons]
        by_cases same : iri = other
        · subst same
          simp [here]
        · rw [beq_false_of_ne same, beq_false_of_ne (Ne.symm here)]
          exact ih

def pushAll (table : LinkTable) (entries : List (Iri × Iri)) : LinkTable :=
  entries.foldl (fun table entry => table.push entry.1 entry.2) table

theorem mem_under_pushAll {table : LinkTable} {entries : List (Iri × Iri)} {key item : Iri} :
    item ∈ (table.pushAll entries).under key ↔ item ∈ table.under key ∨ (key, item) ∈ entries := by
  induction entries generalizing table with
  | nil => simp [pushAll]
  | cons entry rest ih =>
      rw [pushAll, List.foldl_cons, ← pushAll, ih, under_push, List.mem_cons]
      rcases entry with ⟨otherKey, otherItem⟩
      by_cases same : key = otherKey
      · subst same
        simp [mem_addNew, or_assoc]
      · simp [same]

theorem nodup_under_pushAll {table : LinkTable} (nodup : ∀ iri, (table.under iri).Nodup)
    (entries : List (Iri × Iri)) (iri : Iri) : ((table.pushAll entries).under iri).Nodup := by
  induction entries generalizing table with
  | nil => exact nodup iri
  | cons entry rest ih =>
      rw [pushAll, List.foldl_cons, ← pushAll]
      refine ih fun other => ?_
      rw [under_push]
      split
      · exact nodup_addNew (nodup _) _
      · exact nodup other

theorem under_sort (order : List Iri) (table : LinkTable) (iri : Iri) :
    (table.sort order).under iri =
      sortedBy (fun left right => order.idxOf left < order.idxOf right) (table.under iri) := by
  unfold under sort
  induction table with
  | nil => rfl
  | cons row rest ih =>
      rcases row with ⟨key, items⟩
      rw [List.map_cons, List.lookup_cons, List.lookup_cons]
      cases iri == key with
      | true => rfl
      | false => exact ih

end LinkTable

theorem sortedBy_idxOf {order items : List Iri} (orderNodup : order.Nodup)
    (inside : ∀ item ∈ items, item ∈ order) :
    sortedBy (fun left right => order.idxOf left < order.idxOf right) items =
      order.filter fun iri => iri ∈ items := by
  have sorted : (sortedBy (fun left right => order.idxOf left < order.idxOf right) items).Pairwise
      fun left right => order.idxOf left < order.idxOf right := by
    have pairwise := @pairwise_sortedBy _ _
      (fun left right => decide (order.idxOf left < order.idxOf right)) items
    simp only [decide_eq_true_eq, decide_eq_false_iff_not] at pairwise
    refine pairwise (fun _ _ _ => Nat.lt_trans) ?_
    intro left leftMember right _ different notBefore
    have places : order.idxOf left ≠ order.idxOf right := fun same =>
      different ((List.idxOf_inj (inside left leftMember)).mp same)
    omega
  have ordered : order.Pairwise fun left right => order.idxOf left < order.idxOf right := by
    rw [List.pairwise_iff_getElem]
    intro i j iBound jBound less
    rwa [orderNodup.idxOf_getElem i iBound, orderNodup.idxOf_getElem j jBound]
  have irreflexive : Std.Irrefl fun left right => order.idxOf left < order.idxOf right :=
    ⟨fun _ => Nat.lt_irrefl _⟩
  have antisymmetric : Std.Antisymm fun left right => order.idxOf left < order.idxOf right :=
    ⟨fun _ _ less more => absurd less (Nat.lt_asymm more)⟩
  refine sorted.eq_of_mem_iff (ordered.sublist List.filter_sublist) fun iri => ?_
  rw [mem_sortedBy, List.mem_filter, decide_eq_true_eq]
  exact ⟨fun member => ⟨inside iri member, member⟩, And.right⟩

namespace Links

theorem parents_linkAll (links : Links) (pairs : List (Iri × Iri)) :
    (links.linkAll pairs).parents = links.parents.pushAll (pairs.map Prod.swap) := by
  unfold linkAll LinkTable.pushAll
  induction pairs generalizing links with
  | nil => rfl
  | cons pair rest ih => exact ih _

theorem children_linkAll (links : Links) (pairs : List (Iri × Iri)) :
    (links.linkAll pairs).children = links.children.pushAll pairs := by
  unfold linkAll LinkTable.pushAll
  induction pairs generalizing links with
  | nil => rfl
  | cons pair rest ih => exact ih _

theorem linkAll_append (links : Links) (first second : List (Iri × Iri)) :
    (links.linkAll first).linkAll second = links.linkAll (first ++ second) :=
  List.foldl_append.symm

end Links

/-- Links among the concepts of an order, seen from both sides. -/
structure WellLinked (order : List Iri) (parents children : Iri → List Iri) : Prop where
  converse : ∀ parent child, child ∈ children parent ↔ parent ∈ parents child
  parents_nodup : ∀ iri, (parents iri).Nodup
  children_nodup : ∀ iri, (children iri).Nodup
  irreflexive : ∀ iri, iri ∉ parents iri
  ordered : ∀ iri, (children iri).Sublist order
  inside : ∀ iri, ∀ parent ∈ parents iri, parent ∈ order
  unknown : ∀ iri, iri ∉ order → parents iri = [] ∧ children iri = []

section

variable {order : List Iri} {pairs : List (Iri × Iri)}

theorem mem_parents_ofOrder {parent child : Iri} :
    parent ∈ (((Links.ofOrder order).linkAll pairs).sortChildren order).parents.under child ↔
      (parent, child) ∈ pairs := by
  change parent ∈ ((Links.ofOrder order).linkAll pairs).parents.under child ↔ _
  rw [Links.parents_linkAll, LinkTable.mem_under_pushAll]
  simp [Links.ofOrder]

theorem children_ofOrder (orderNodup : order.Nodup)
    (inside : ∀ pair ∈ pairs, pair.2 ∈ order) (iri : Iri) :
    (((Links.ofOrder order).linkAll pairs).sortChildren order).children.under iri =
      order.filter fun child => (iri, child) ∈ pairs := by
  have member : ∀ child, child ∈ ((Links.ofOrder order).linkAll pairs).children.under iri ↔
      (iri, child) ∈ pairs := by
    intro child
    rw [Links.children_linkAll, LinkTable.mem_under_pushAll]
    simp [Links.ofOrder]
  change (((Links.ofOrder order).linkAll pairs).children.sort order).under iri = _
  rw [LinkTable.under_sort, sortedBy_idxOf orderNodup]
  · simp only [member]
  · intro child linked
    exact inside _ ((member child).mp linked)

theorem wellLinked_ofOrder (orderNodup : order.Nodup)
    (inside : ∀ pair ∈ pairs, pair.1 ∈ order ∧ pair.2 ∈ order ∧ pair.1 ≠ pair.2) :
    let links := ((Links.ofOrder order).linkAll pairs).sortChildren order
    WellLinked order links.parents.under links.children.under := by
  intro links
  have children := children_ofOrder orderNodup fun pair member => (inside pair member).2.1
  refine ⟨?_, ?_, ?_, ?_, ?_, ?_, ?_⟩
  · intro parent child
    rw [mem_parents_ofOrder, children, List.mem_filter, decide_eq_true_eq]
    exact ⟨And.right, fun member => ⟨(inside _ member).2.1, member⟩⟩
  · intro iri
    change (((Links.ofOrder order).linkAll pairs).parents.under iri).Nodup
    rw [Links.parents_linkAll]
    exact LinkTable.nodup_under_pushAll (by simp [Links.ofOrder]) _ _
  · intro iri
    rw [children]
    exact orderNodup.filter _
  · intro iri member
    exact (inside _ (mem_parents_ofOrder.mp member)).2.2 rfl
  · intro iri
    rw [children]
    exact List.filter_sublist
  · intro iri parent member
    exact (inside _ (mem_parents_ofOrder.mp member)).1
  · intro iri missing
    constructor
    · refine List.eq_nil_iff_forall_not_mem.mpr fun parent member => ?_
      exact missing (inside _ (mem_parents_ofOrder.mp member)).2.1
    · rw [children, List.filter_eq_nil_iff]
      intro child _ linked
      exact missing (inside _ (by simpa using linked)).1

end

end CatalogBrowser
