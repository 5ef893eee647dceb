import CatalogBrowser.Proofs.ConceptTree.Ancestry
import Mathlib.Data.List.Forall2

/-!
The walk up from a concept goes level by level, so that what takes fewer steps is listed first.

While it runs, the queue holds what is left of one level and after that what is known of the next.
-/

namespace CatalogBrowser.ConceptTree

def AboveBy (tree : ConceptTree) (iri : Iri) : Nat → Iri → Prop
  | 0, above => above = iri
  | steps + 1, above => ∃ child, tree.AboveBy iri steps child ∧ above ∈ tree.parents child

structure ShortestWay (tree : ConceptTree) (iri above : Iri) (steps : Nat) : Prop where
  positive : 0 < steps
  climbs : tree.AboveBy iri steps above
  least : ∀ fewer, 0 < fewer → tree.AboveBy iri fewer above → steps ≤ fewer

/-- `now` is left of what takes so many steps, `next` is known of what takes one more, and all
nearer was met. -/
structure Frontier (tree : ConceptTree) (iri : Iri) (met now next : List Iri) (steps : Nat) :
    Prop where
  positive : 0 < steps
  now_at : ∀ other ∈ now, tree.AboveBy iri steps other
  next_at : ∀ other ∈ next, tree.AboveBy iri (steps + 1) other
  nearer : ∀ fewer < steps, ∀ other, tree.AboveBy iri fewer other → other ∈ met
  level : ∀ other, tree.AboveBy iri steps other → other ∈ met ∨ other ∈ now
  closed : ∀ child ∈ met, ∀ parent ∈ tree.parents child, parent ∈ met ∨ parent ∈ now ++ next

variable {tree : ConceptTree} {iri first : Iri} {met now next queue rest : List Iri} {steps : Nat}

theorem frontier_parents (tree : ConceptTree) (iri : Iri) :
    Frontier tree iri [iri] (tree.parents iri) [] 1 where
  positive := Nat.one_pos
  now_at other listed := ⟨iri, rfl, listed⟩
  next_at := by simp
  nearer := by
    intro fewer less other reached
    obtain rfl : fewer = 0 := by omega
    exact List.mem_singleton.mpr reached
  level := by
    rintro other ⟨_, rfl, listed⟩
    exact Or.inr listed
  closed := by
    intro child member parent listed
    obtain rfl := List.mem_singleton.mp member
    exact Or.inr (by simpa using listed)

namespace Frontier

theorem nextLevel (frontier : Frontier tree iri met [] next steps) :
    Frontier tree iri met next [] (steps + 1) where
  positive := Nat.succ_pos steps
  now_at := frontier.next_at
  next_at := by simp
  nearer := by
    intro fewer less other reached
    rcases Nat.lt_or_eq_of_le (Nat.le_of_lt_succ less) with below | rfl
    · exact frontier.nearer fewer below other reached
    · simpa using frontier.level other reached
  level := by
    rintro other ⟨child, reached, listed⟩
    have childMet : child ∈ met := by simpa using frontier.level child reached
    simpa using frontier.closed child childMet other listed
  closed := by
    intro child member parent listed
    simpa using frontier.closed child member parent listed

theorem of_queue (frontier : Frontier tree iri met now next steps)
    (queued : first :: rest = now ++ next) :
    ∃ level later steps', steps ≤ steps' ∧ rest = level ++ later ∧
      Frontier tree iri met (first :: level) later steps' := by
  cases now with
  | nil =>
      obtain rfl : first :: rest = next := queued
      exact ⟨rest, [], steps + 1, Nat.le_succ steps, by simp, frontier.nextLevel⟩
  | cons head level =>
      obtain ⟨rfl, rfl⟩ := List.cons.inj queued
      exact ⟨level, next, steps, Nat.le_refl steps, rfl, frontier⟩

theorem skip (frontier : Frontier tree iri met (first :: now) next steps) (seen : first ∈ met) :
    Frontier tree iri met now next steps where
  positive := frontier.positive
  now_at other member := frontier.now_at other (List.mem_cons_of_mem _ member)
  next_at := frontier.next_at
  nearer := frontier.nearer
  level := by
    intro other reached
    rcases frontier.level other reached with before | here
    · exact Or.inl before
    · rcases List.mem_cons.mp here with rfl | later
      · exact Or.inl seen
      · exact Or.inr later
  closed := by
    intro child member parent listed
    rcases frontier.closed child member parent listed with before | here
    · exact Or.inl before
    · rcases List.mem_cons.mp here with rfl | later
      · exact Or.inl seen
      · exact Or.inr later

theorem visit (frontier : Frontier tree iri met (first :: now) next steps) :
    Frontier tree iri (first :: met) now (next ++ tree.parents first) steps where
  positive := frontier.positive
  now_at other member := frontier.now_at other (List.mem_cons_of_mem _ member)
  next_at := by
    intro other member
    rcases List.mem_append.mp member with known | parent
    · exact frontier.next_at other known
    · exact ⟨first, frontier.now_at first List.mem_cons_self, parent⟩
  nearer fewer less other reached :=
    List.mem_cons_of_mem _ (frontier.nearer fewer less other reached)
  level := by
    intro other reached
    rcases frontier.level other reached with before | here
    · exact Or.inl (List.mem_cons_of_mem _ before)
    · rcases List.mem_cons.mp here with rfl | later
      · exact Or.inl List.mem_cons_self
      · exact Or.inr later
  closed := by
    intro child member parent listed
    rcases List.mem_cons.mp member with rfl | before
    · simp [listed]
    · rcases frontier.closed child before parent listed with seen | here
      · exact Or.inl (List.mem_cons_of_mem _ seen)
      · rcases List.mem_cons.mp here with rfl | later
        · exact Or.inl List.mem_cons_self
        · refine Or.inr ?_
          rw [← List.append_assoc]
          exact List.mem_append_left _ later

theorem shortestWay (frontier : Frontier tree iri met (first :: now) next steps)
    (fresh : first ∉ met) : tree.ShortestWay iri first steps where
  positive := frontier.positive
  climbs := frontier.now_at first List.mem_cons_self
  least := by
    intro fewer _ reached
    refine Nat.le_of_not_lt fun less => ?_
    exact fresh (frontier.nearer fewer less first reached)

/-- The walk goes on with what takes at least as many steps as the level it is at. -/
theorem exists_lengths (frontier : Frontier tree iri met now next steps)
    (queued : queue = now ++ next) :
    ∃ lengths, List.Forall₂ (tree.ShortestWay iri) (tree.climb met queue) lengths ∧
      lengths.Pairwise (· ≤ ·) ∧ ∀ length ∈ lengths, steps ≤ length := by
  fun_induction climb tree met queue generalizing now next steps with
  | case1 met => exact ⟨[], List.Forall₂.nil, List.Pairwise.nil, by simp⟩
  | case2 met first rest seen ih =>
      obtain ⟨level, later, reached, further, rfl, here⟩ := frontier.of_queue queued
      obtain ⟨lengths, shortest, sorted, bound⟩ := ih (here.skip seen) rfl
      refine ⟨lengths, shortest, sorted, ?_⟩
      intro length member
      exact Nat.le_trans further (bound length member)
  | case3 met first rest fresh ih =>
      obtain ⟨level, later, reached, further, rfl, here⟩ := frontier.of_queue queued
      obtain ⟨lengths, shortest, sorted, bound⟩ := ih here.visit (List.append_assoc ..)
      refine ⟨reached :: lengths, List.Forall₂.cons (here.shortestWay fresh) shortest,
        List.Pairwise.cons bound sorted, ?_⟩
      intro length member
      rcases List.mem_cons.mp member with rfl | later
      · exact further
      · exact Nat.le_trans further (bound length later)

end Frontier

theorem nodup_climb (tree : ConceptTree) (met queue : List Iri) : (tree.climb met queue).Nodup := by
  fun_induction climb tree met queue with
  | case1 met => exact List.nodup_nil
  | case2 met first rest seen ih => exact ih
  | case3 met first rest fresh ih =>
      refine List.nodup_cons.mpr ⟨?_, ih⟩
      intro again
      exact notMem_of_mem_climb again List.mem_cons_self

/-- The ancestors of a concept are the others that some way up leads to, each once, by the length of
the shortest way. -/
theorem ancestors_nearest_first (input : List Concept) (options : DisplayOptions) (iri : Iri) :
    let tree := ofConcepts input options
    (∀ other, other ∈ tree.ancestors iri ↔ other ≠ iri ∧ tree.Above iri other) ∧
    (tree.ancestors iri).Nodup ∧
    ∃ lengths, List.Forall₂ (tree.ShortestWay iri) (tree.ancestors iri) lengths ∧
      lengths.Pairwise (· ≤ ·) := by
  intro tree
  refine ⟨fun other => mem_ancestors, nodup_climb tree [iri] (tree.parents iri), ?_⟩
  obtain ⟨lengths, shortest, sorted, _⟩ :=
    (frontier_parents tree iri).exists_lengths (List.append_nil _).symm
  exact ⟨lengths, shortest, sorted⟩

end CatalogBrowser.ConceptTree
