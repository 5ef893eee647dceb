import CatalogBrowser.ConceptTree.Basic
import CatalogBrowser.Proofs.ConceptTree.LinkTable
import Mathlib.Data.List.Induction

/-!
What a concept tree is built from a list of concepts: the records it loads and the links it has.
-/

namespace CatalogBrowser

namespace Concept

theorem firstOfEach_concat (concepts : List Concept) (concept : Concept) :
    firstOfEach (concepts ++ [concept]) =
      if concept.iri ∈ (firstOfEach concepts).map Concept.iri then firstOfEach concepts
      else firstOfEach concepts ++ [concept] := by
  rw [firstOfEach, List.foldl_append, ← firstOfEach]
  simp [addFirst]

theorem mem_map_firstOfEach (concepts : List Concept) (iri : Iri) :
    iri ∈ (firstOfEach concepts).map Concept.iri ↔ iri ∈ concepts.map Concept.iri := by
  induction concepts using List.reverseRecOn generalizing iri with
  | nil => rfl
  | append_singleton concepts concept ih =>
      rw [firstOfEach_concat, List.map_append, List.mem_append, ← ih]
      split
      · next present =>
        refine ⟨Or.inl, fun either => either.elim id fun same => ?_⟩
        rw [List.map_singleton, List.mem_singleton] at same
        rwa [same]
      · rw [List.map_append, List.mem_append]

theorem nodup_map_firstOfEach (concepts : List Concept) :
    ((firstOfEach concepts).map Concept.iri).Nodup := by
  induction concepts using List.reverseRecOn with
  | nil => exact List.nodup_nil
  | append_singleton concepts concept ih =>
      rw [firstOfEach_concat]
      split
      · exact ih
      · next absent =>
        rw [List.map_append]
        refine ih.append (List.nodup_singleton _) ?_
        intro iri member same
        exact absent (List.mem_singleton.mp same ▸ member)

end Concept

namespace ConceptTree

def firstShown (options : DisplayOptions) (input : List Concept) : List Concept :=
  (input.zipIdx.filter fun (concept, place) => options.shows concept.conceptType &&
    !(input.take place).any fun earlier =>
      options.shows earlier.conceptType && earlier.iri = concept.iri).map Prod.fst

theorem firstShown_concat (options : DisplayOptions) (input : List Concept) (concept : Concept) :
    firstShown options (input ++ [concept]) = firstShown options input ++
      if options.shows concept.conceptType && !input.any fun earlier =>
        options.shows earlier.conceptType && earlier.iri = concept.iri then [concept] else [] := by
  unfold firstShown
  rw [List.zipIdx_append, List.filter_append, List.map_append]
  congr 1
  · refine congrArg (List.map Prod.fst) (List.filter_congr ?_)
    rintro ⟨other, place⟩ member
    have bound : place < input.length := by
      have place := List.mem_zipIdx' member
      omega
    dsimp only
    rw [List.take_append_of_le_length (Nat.le_of_lt bound)]
  · simp only [List.zipIdx_cons, List.zipIdx_nil, Nat.zero_add, List.filter_cons, List.filter_nil,
      List.take_left]
    split <;> rfl

theorem loadedOf_eq_firstShown (options : DisplayOptions) (input : List Concept) :
    loadedOf options input = firstShown options input := by
  induction input using List.reverseRecOn with
  | nil => rfl
  | append_singleton input concept ih =>
      rw [firstShown_concat, ← ih]
      unfold loadedOf
      rw [List.filter_append, List.filter_cons, List.filter_nil]
      cases shown : options.shows concept.conceptType with
      | false => simp
      | true =>
          have seen : concept.iri ∈ (Concept.firstOfEach (input.filter fun other =>
              options.shows other.conceptType)).map Concept.iri ↔ (input.any fun earlier =>
                options.shows earlier.conceptType && earlier.iri = concept.iri) = true := by
            rw [Concept.mem_map_firstOfEach]
            simp [and_assoc]
          rw [if_pos rfl, Concept.firstOfEach_concat]
          by_cases present : (input.any fun earlier =>
              options.shows earlier.conceptType && earlier.iri = concept.iri) = true
          · rw [if_pos (seen.mpr present), present]
            simp
          · rw [if_neg (fun member => present (seen.mp member))]
            simp [present]

theorem nodup_order_loadedOf (options : DisplayOptions) (input : List Concept) :
    ((loadedOf options input).map Concept.iri).Nodup := Concept.nodup_map_firstOfEach _

theorem loadedOf_sublist (options : DisplayOptions) (input : List Concept) :
    (loadedOf options input).Sublist input := by
  rw [loadedOf_eq_firstShown]
  calc
    (firstShown options input).Sublist (input.zipIdx.map Prod.fst) := List.filter_sublist.map _
    _ = input := List.zipIdx_map_fst 0 input

/-! The links -/

/-- A loaded concept is a parent of another if that one states it, or states no parent at all and
is one of its stated children. -/
def EffectiveParent (loaded : List Concept) (parent child : Iri) : Prop :=
  parent ≠ child ∧ ∃ above ∈ loaded, ∃ below ∈ loaded, above.iri = parent ∧ below.iri = child ∧
    (parent ∈ below.parents ∨ below.parents = [] ∧ child ∈ above.children)

/-- With grouping by domain, a loaded property belongs under its domain, if that is loaded too. -/
def GroupedUnder (options : DisplayOptions) (loaded : List Concept) (domain child : Iri) : Prop :=
  options.groupByDomain = true ∧ domain ≠ child ∧
    ∃ above ∈ loaded, ∃ below ∈ loaded, above.iri = domain ∧ below.iri = child ∧
      below.conceptType = .property ∧ below.domain = some domain

/-- What a concept is displayed under: the domain that groups it, or else its parents. -/
def DisplayedParent (options : DisplayOptions) (loaded : List Concept) (parent child : Iri) :
    Prop :=
  GroupedUnder options loaded parent child ∨
    (∀ domain, ¬ GroupedUnder options loaded domain child) ∧ EffectiveParent loaded parent child

section

variable {loaded : List Concept}

theorem EffectiveParent.inside {parent child : Iri}
    (effectively : EffectiveParent loaded parent child) :
    parent ∈ loaded.map Concept.iri ∧ child ∈ loaded.map Concept.iri ∧ parent ≠ child := by
  obtain ⟨different, above, aboveMember, below, belowMember, rfl, rfl, _⟩ := effectively
  exact ⟨List.mem_map_of_mem aboveMember, List.mem_map_of_mem belowMember, different⟩

theorem GroupedUnder.inside {options : DisplayOptions} {domain child : Iri}
    (grouped : GroupedUnder options loaded domain child) :
    domain ∈ loaded.map Concept.iri ∧ child ∈ loaded.map Concept.iri ∧ domain ≠ child := by
  obtain ⟨_, different, above, aboveMember, below, belowMember, rfl, rfl, _⟩ := grouped
  exact ⟨List.mem_map_of_mem aboveMember, List.mem_map_of_mem belowMember, different⟩

theorem DisplayedParent.inside {options : DisplayOptions} {parent child : Iri}
    (displayed : DisplayedParent options loaded parent child) :
    parent ∈ loaded.map Concept.iri ∧ child ∈ loaded.map Concept.iri ∧ parent ≠ child := by
  rcases displayed with grouped | ⟨_, effectively⟩
  · exact grouped.inside
  · exact effectively.inside

theorem holds_iff {iri : Iri} :
    holds loaded iri = true ↔ ∃ concept ∈ loaded, concept.iri = iri := by
  simp [holds]

theorem isAdoptable_iff (nodup : (loaded.map Concept.iri).Nodup) {iri : Iri} :
    isAdoptable loaded iri = true ↔
      ∃ concept ∈ loaded, concept.iri = iri ∧ concept.parents = [] := by
  unfold isAdoptable
  cases found : loaded.find? fun concept => concept.iri = iri with
  | none =>
      simp only [List.find?_eq_none, decide_eq_true_eq] at found
      simp only [Bool.false_eq_true, false_iff, not_exists]
      rintro concept ⟨member, same, _⟩
      exact found concept member same
  | some concept =>
      have member := List.mem_of_find?_eq_some found
      have same : concept.iri = iri := by simpa using List.find?_some found
      simp only [List.isEmpty_iff]
      constructor
      · intro none
        exact ⟨concept, member, same, none⟩
      · rintro ⟨other, otherMember, otherSame, none⟩
        have equal := List.inj_on_of_nodup_map nodup member otherMember (same.trans otherSame.symm)
        rwa [equal]

theorem mem_statedLinks {parent child : Iri} :
    (parent, child) ∈ statedLinks loaded ↔ parent ≠ child ∧
      ∃ above ∈ loaded, ∃ below ∈ loaded, above.iri = parent ∧ below.iri = child ∧
        parent ∈ below.parents := by
  simp only [statedLinks, List.mem_flatMap, List.mem_map, List.mem_filter, Bool.and_eq_true,
    decide_eq_true_eq, holds_iff, Prod.mk.injEq]
  constructor
  · rintro ⟨below, member, parent, ⟨stated, different, above, aboveMember, same⟩, rfl, rfl⟩
    exact ⟨different, above, aboveMember, below, member, same, rfl, stated⟩
  · rintro ⟨different, above, aboveMember, below, member, same, rfl, stated⟩
    exact ⟨below, member, parent, ⟨stated, different, above, aboveMember, same⟩, rfl, rfl⟩

theorem mem_filledLinks (nodup : (loaded.map Concept.iri).Nodup) {parent child : Iri} :
    (parent, child) ∈ filledLinks loaded ↔ parent ≠ child ∧
      ∃ above ∈ loaded, ∃ below ∈ loaded, above.iri = parent ∧ below.iri = child ∧
        below.parents = [] ∧ child ∈ above.children := by
  simp only [filledLinks, List.mem_flatMap, List.mem_map, List.mem_filter, Bool.and_eq_true,
    decide_eq_true_eq, isAdoptable_iff nodup, Prod.mk.injEq]
  constructor
  · rintro ⟨above, member, child, ⟨stated, ⟨below, belowMember, same, none⟩, different⟩, rfl, rfl⟩
    exact ⟨Ne.symm different, above, member, below, belowMember, rfl, same, none, stated⟩
  · rintro ⟨different, above, member, below, belowMember, rfl, same, none, stated⟩
    exact ⟨above, member, child, ⟨stated, ⟨below, belowMember, same, none⟩, Ne.symm different⟩,
      rfl, rfl⟩

theorem mem_hierarchyLinks (nodup : (loaded.map Concept.iri).Nodup) {parent child : Iri} :
    (parent, child) ∈ statedLinks loaded ++ filledLinks loaded ↔
      EffectiveParent loaded parent child := by
  rw [List.mem_append, mem_statedLinks, mem_filledLinks nodup, EffectiveParent, ← and_or_left]
  refine and_congr_right fun _ => ?_
  constructor
  · rintro (⟨above, member, below, belowMember, same, belowSame, stated⟩ |
      ⟨above, member, below, belowMember, same, belowSame, none, stated⟩)
    · exact ⟨above, member, below, belowMember, same, belowSame, Or.inl stated⟩
    · exact ⟨above, member, below, belowMember, same, belowSame, Or.inr ⟨none, stated⟩⟩
  · rintro ⟨above, member, below, belowMember, same, belowSame, stated | ⟨none, stated⟩⟩
    · exact Or.inl ⟨above, member, below, belowMember, same, belowSame, stated⟩
    · exact Or.inr ⟨above, member, below, belowMember, same, belowSame, none, stated⟩

theorem hierarchyOf_eq : hierarchyOf loaded =
    (Links.ofOrder (loaded.map Concept.iri)).linkAll (statedLinks loaded ++ filledLinks loaded) :=
  Links.linkAll_append ..

theorem groupingDomain?_eq_some {options : DisplayOptions} {concept : Concept}
    (member : concept ∈ loaded) {domain : Iri}
    (nodup : (loaded.map Concept.iri).Nodup) :
    groupingDomain? options loaded concept = some domain ↔
      GroupedUnder options loaded domain concept.iri := by
  unfold groupingDomain? GroupedUnder
  constructor
  · intro grouped
    split at grouped
    · next applies =>
      simp only [Bool.and_eq_true, Concept.isProperty, decide_eq_true_eq] at applies
      obtain ⟨stated, accepted⟩ := Option.filter_eq_some_iff.mp grouped
      simp only [Bool.and_eq_true, decide_eq_true_eq, holds_iff] at accepted
      obtain ⟨different, above, aboveMember, same⟩ := accepted
      exact ⟨applies.1, different, above, aboveMember, concept, member, same, rfl, applies.2,
        stated⟩
    · simp at grouped
  · rintro ⟨grouping, different, above, aboveMember, below, belowMember, same, belowSame, property,
      stated⟩
    have equal := List.inj_on_of_nodup_map nodup belowMember member belowSame
    subst equal
    simp only [grouping, Concept.isProperty, property, decide_true, Bool.and_self, if_true]
    refine Option.filter_eq_some_iff.mpr ⟨stated, ?_⟩
    simp only [Bool.and_eq_true, decide_eq_true_eq, holds_iff]
    exact ⟨different, above, aboveMember, same⟩

theorem mem_displayLinks {options : DisplayOptions} (nodup : (loaded.map Concept.iri).Nodup)
    {parent child : Iri} :
    (parent, child) ∈ displayLinks options loaded (hierarchyOf loaded) ↔
      DisplayedParent options loaded parent child := by
  have effective : ∀ {iri}, parent ∈ (hierarchyOf loaded).parents.under iri ↔
      EffectiveParent loaded parent iri := by
    intro iri
    rw [hierarchyOf_eq, ← mem_hierarchyLinks nodup]
    exact mem_parents_ofOrder
  simp only [displayLinks, List.mem_flatMap]
  constructor
  · rintro ⟨below, member, linked⟩
    cases grouped : groupingDomain? options loaded below with
    | some domain =>
        simp only [grouped, List.mem_singleton, Prod.mk.injEq] at linked
        obtain ⟨rfl, rfl⟩ := linked
        exact Or.inl ((groupingDomain?_eq_some member nodup).mp grouped)
    | none =>
        simp only [grouped, List.mem_map, Prod.mk.injEq] at linked
        obtain ⟨_, listed, rfl, rfl⟩ := linked
        refine Or.inr ⟨fun domain under => ?_, effective.mp listed⟩
        rw [(groupingDomain?_eq_some member nodup).mpr under] at grouped
        simp at grouped
  · rintro (under | ⟨ungrouped, effectively⟩)
    · obtain ⟨below, member, rfl⟩ := List.mem_map.mp under.inside.2.1
      refine ⟨below, member, ?_⟩
      simp [(groupingDomain?_eq_some member nodup).mpr under]
    · obtain ⟨below, member, rfl⟩ := List.mem_map.mp effectively.inside.2.1
      refine ⟨below, member, ?_⟩
      have alone : groupingDomain? options loaded below = none := by
        rw [Option.eq_none_iff_forall_ne_some]
        intro domain grouped
        exact ungrouped domain ((groupingDomain?_eq_some member nodup).mp grouped)
      simp [alone, effective.mpr effectively]

end

section

variable (input : List Concept) (options : DisplayOptions)

theorem mem_statedParents {parent child : Iri} :
    parent ∈ (ofConcepts input options).statedParents child ↔
      EffectiveParent (ofConcepts input options).concepts parent child := by
  change parent ∈ ((hierarchyOf (loadedOf options input)).sortChildren _).parents.under child ↔
    EffectiveParent (loadedOf options input) parent child
  rw [hierarchyOf_eq, mem_parents_ofOrder]
  exact mem_hierarchyLinks (nodup_order_loadedOf options input)

theorem mem_parents {parent child : Iri} :
    parent ∈ (ofConcepts input options).parents child ↔
      DisplayedParent options (ofConcepts input options).concepts parent child := by
  refine Iff.trans ?_ (mem_displayLinks (nodup_order_loadedOf options input))
  exact mem_parents_ofOrder

theorem statedLinks_wellLinked : WellLinked (ofConcepts input options).order
    (ofConcepts input options).statedParents (ofConcepts input options).statedChildren := by
  have nodup := nodup_order_loadedOf options input
  have inside : ∀ pair ∈
      statedLinks (loadedOf options input) ++ filledLinks (loadedOf options input),
      pair.1 ∈ (loadedOf options input).map Concept.iri ∧
        pair.2 ∈ (loadedOf options input).map Concept.iri ∧ pair.1 ≠ pair.2 :=
    fun pair member => ((mem_hierarchyLinks nodup).mp member).inside
  have linked := wellLinked_ofOrder nodup inside
  rwa [← hierarchyOf_eq] at linked

theorem displayLinks_wellLinked : WellLinked (ofConcepts input options).order
    (ofConcepts input options).parents (ofConcepts input options).children := by
  have nodup := nodup_order_loadedOf options input
  exact wellLinked_ofOrder nodup
    fun pair member => ((mem_displayLinks nodup).mp member).inside

theorem mem_roots {iri : Iri} : iri ∈ (ofConcepts input options).roots ↔
    iri ∈ (ofConcepts input options).order ∧
      ∀ parent, ¬ DisplayedParent options (ofConcepts input options).concepts parent iri := by
  rw [roots, List.mem_filter, List.isEmpty_iff, List.eq_nil_iff_forall_not_mem]
  simp only [mem_parents]

/-- A tree loads the first shown record of every identifier, and has the links that the loaded
records give and no other. -/
theorem ofConcepts_exact (input : List Concept) (options : DisplayOptions) :
    let tree := ofConcepts input options
    tree.concepts = firstShown options input ∧
    (∀ parent child, parent ∈ tree.statedParents child ↔
      EffectiveParent tree.concepts parent child) ∧
    (∀ parent child, parent ∈ tree.parents child ↔
      DisplayedParent options tree.concepts parent child) ∧
    WellLinked tree.order tree.statedParents tree.statedChildren ∧
    WellLinked tree.order tree.parents tree.children ∧
    (∀ iri, iri ∈ tree.roots ↔
      iri ∈ tree.order ∧ ∀ parent, ¬ DisplayedParent options tree.concepts parent iri) ∧
    tree.roots.Sublist tree.order := by
  intro tree
  refine ⟨loadedOf_eq_firstShown options input, ?_, ?_, statedLinks_wellLinked input options,
    displayLinks_wellLinked input options, ?_, List.filter_sublist⟩
  · intro parent child
    exact mem_statedParents input options
  · intro parent child
    exact mem_parents input options
  · intro iri
    exact mem_roots input options

end

end ConceptTree

end CatalogBrowser
