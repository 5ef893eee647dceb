import CatalogBrowser.Proofs.ConceptTree.Ancestry
import CatalogBrowser.Proofs.ConceptTree.Unfolding

/-!
Grouping by domain moves properties below their domains.  What was in the displayed tree before
stays in it, unless every way down to it passes a property that is moved to where nothing leads;
and nothing leads to a concept only if going up from it goes around.
-/

namespace CatalogBrowser

namespace ConceptTree

section

variable {input : List Concept} {options : DisplayOptions} {iri : Iri}

theorem leads_iff_unfolds {group : Option SourceId} {path : List Iri} :
    (∃ last, Branch.Leads (Branch.inGroup (ofConcepts input options).view group)
      (path.map Iri.text) last) ↔ (ofConcepts input options).Unfolds group path := by
  have linked := displayLinks_wellLinked input options
  rw [inGroup_view fun _ _ => conceptType_of_get?]
  constructor
  · rintro ⟨last, leads⟩
    obtain ⟨front, stop, same, descends, _⟩ := descends_of_leads leads
    rw [Iri.text_injective.list_map same]
    exact descends_roots_iff.mp descends
  · intro unfolds
    have nonempty : path ≠ [] := by
      rintro rfl
      obtain ⟨_, starts, _⟩ := unfolds.starts
      simp at starts
    rw [← List.dropLast_concat_getLast nonempty] at unfolds ⊢
    obtain ⟨last, _, leads⟩ := leads_of_descends
      (fun parent _ member => (linked.ordered parent).subset member)
      (fun _ member => mem_order_of_mem_roots (List.mem_of_mem_filter member))
      (descends_roots_iff.mpr unfolds)
    exact ⟨last, leads⟩

theorem occurs_iff_reached : (ofConcepts input options).Occurs iri ↔
    ∃ root ∈ (ofConcepts input options).roots, Relation.ReflTransGen
      (fun parent child => child ∈ (ofConcepts input options).children parent) root iri :=
  occurs_iff fun _ _ => leads_iff_unfolds

theorem occurs_of_mem_roots (root : iri ∈ (ofConcepts input options).roots) :
    (ofConcepts input options).Occurs iri :=
  occurs_iff_reached.mpr ⟨iri, root, Relation.ReflTransGen.refl⟩

theorem occurs_of_displayedParent {parent : Iri}
    (displayed : DisplayedParent options (ofConcepts input options).concepts parent iri)
    (occurs : (ofConcepts input options).Occurs parent) :
    (ofConcepts input options).Occurs iri := by
  obtain ⟨root, isRoot, reach⟩ := occurs_iff_reached.mp occurs
  have below : iri ∈ (ofConcepts input options).children parent :=
    ((displayLinks_wellLinked input options).converse parent iri).mpr
      ((mem_parents input options).mpr displayed)
  exact occurs_iff_reached.mpr ⟨root, isRoot, reach.tail below⟩

/-- Nothing leads to a loaded concept only if going up from it goes around. -/
theorem exists_cycle_of_not_occurs (member : iri ∈ (ofConcepts input options).order)
    (lost : ¬ (ofConcepts input options).Occurs iri) :
    ∃ other, (other = iri ∨ (ofConcepts input options).Above iri other) ∧
      (ofConcepts input options).Above other other := by
  have linked := displayLinks_wellLinked input options
  have climb : ∀ {below above}, Relation.TransGen
      (fun parent child => child ∈ (ofConcepts input options).children parent) above below →
      (ofConcepts input options).Above below above := by
    intro below above down
    exact Relation.transGen_swap.mp
      (down.lift id fun parent child => (linked.converse parent child).mp)
  rcases exists_root_or_cycle_above linked member List.not_mem_nil (by simp) with
    reached | ⟨other, around, reach⟩
  · exact absurd (occurs_iff_reached.mpr reached) lost
  · refine ⟨other, ?_, climb around⟩
    rcases Relation.reflTransGen_iff_eq_or_transGen.mp reach with same | down
    · exact Or.inl same.symm
    · exact Or.inr (climb down)

/-! Before and after -/

theorem displayedParent_iff_effectiveParent (ungrouped : options.groupByDomain = false)
    {loaded : List Concept} {parent child : Iri} :
    DisplayedParent options loaded parent child ↔ EffectiveParent loaded parent child := by
  have never : ∀ domain, ¬ GroupedUnder options loaded domain child := by
    rintro domain ⟨grouping, _⟩
    simp [ungrouped] at grouping
  constructor
  · rintro (grouped | ⟨_, effectively⟩)
    · exact absurd grouped (never parent)
    · exact effectively
  · intro effectively
    exact Or.inr ⟨never, effectively⟩

section

variable {plain grouped : DisplayOptions} (ungrouped : plain.groupByDomain = false)
  (loaded : loadedOf plain input = loadedOf grouped input)

include ungrouped loaded

theorem occurs_of_regrouped
    (placed : iri ∈ (ofConcepts input plain).roots ∨
      ∃ parent, (ofConcepts input grouped).Occurs parent ∧
        iri ∈ (ofConcepts input plain).children parent)
    (moved : ∀ domain, GroupedUnder grouped (ofConcepts input grouped).concepts domain iri →
      (ofConcepts input grouped).Occurs domain) : (ofConcepts input grouped).Occurs iri := by
  have concepts : (ofConcepts input plain).concepts = (ofConcepts input grouped).concepts := loaded
  by_cases moves : ∃ domain, GroupedUnder grouped (ofConcepts input grouped).concepts domain iri
  · obtain ⟨domain, under⟩ := moves
    exact occurs_of_displayedParent (Or.inl under) (moved domain under)
  · have stays := not_exists.mp moves
    rcases placed with root | ⟨parent, occurs, below⟩
    · obtain ⟨member, parentless⟩ := (mem_roots input plain).mp root
      rw [order, concepts] at member
      refine occurs_of_mem_roots ?_
      refine (mem_roots input grouped).mpr ⟨member, fun parent displayed => ?_⟩
      rcases displayed with under | ⟨_, effectively⟩
      · exact stays parent under
      · rw [← concepts, ← displayedParent_iff_effectiveParent ungrouped] at effectively
        exact parentless parent effectively
    · have displayed := (mem_parents input plain).mp
        (((displayLinks_wellLinked input plain).converse parent iri).mp below)
      rw [displayedParent_iff_effectiveParent ungrouped, concepts] at displayed
      exact occurs_of_displayedParent (Or.inr ⟨stays, displayed⟩) occurs

theorem occurs_of_walk {path : List Iri}
    (starts : ∀ root ∈ path.head?, root ∈ (ofConcepts input plain).roots)
    (walk : path.IsChain fun parent child => child ∈ (ofConcepts input plain).children parent)
    (moved : ∀ iri ∈ path, ∀ domain,
      GroupedUnder grouped (ofConcepts input grouped).concepts domain iri →
        (ofConcepts input grouped).Occurs domain) :
    ∀ iri ∈ path, (ofConcepts input grouped).Occurs iri := by
  refine (List.IsChain.iff_mem.mp walk).induction _ path ?_ ?_
  · rintro parent child ⟨_, member, below⟩ occurs
    exact occurs_of_regrouped ungrouped loaded (Or.inr ⟨parent, occurs, below⟩) (moved child member)
  · intro nonempty
    have root := starts (path.head nonempty) (List.head?_eq_some_head nonempty)
    exact occurs_of_regrouped ungrouped loaded (Or.inl root) (moved _ (List.head_mem nonempty))

end

end

/-- Grouping by domain keeps each concept in the tree unless all ways to it pass a property whose
domain is not shown. -/
theorem regrouping_keeps_occurrences (input : List Concept) (options : DisplayOptions) :
    let plain := ofConcepts input { options with groupByDomain := false }
    let grouped := ofConcepts input { options with groupByDomain := true }
    (∀ iri, plain.Occurs iri → grouped.Occurs iri ∨
      ∀ group front, plain.Unfolds group (front ++ [iri]) → ∃ moved ∈ front ++ [iri], ∃ domain,
        GroupedUnder grouped.options grouped.concepts domain moved ∧ ¬ grouped.Occurs domain) ∧
    (∀ iri ∈ grouped.order, ¬ grouped.Occurs iri →
      ∃ other, (other = iri ∨ grouped.Above iri other) ∧ grouped.Above other other) := by
  intro plain grouped
  have loaded : loadedOf { options with groupByDomain := false } input =
      loadedOf { options with groupByDomain := true } input := rfl
  refine ⟨fun iri _ => ?_, fun iri member => exists_cycle_of_not_occurs member⟩
  by_cases occurs : grouped.Occurs iri
  · exact Or.inl occurs
  · refine Or.inr fun group front unfolds => ?_
    by_contra! kept
    obtain ⟨root, first, isRoot, _⟩ := unfolds.starts
    have starts : ∀ other ∈ (front ++ [iri]).head?, other ∈ plain.roots := by
      intro other here
      obtain rfl : root = other := Option.some.inj (first.symm.trans here)
      exact isRoot
    exact occurs (occurs_of_walk rfl loaded starts unfolds.linked kept iri (by simp))

theorem regrouping_keeps_occurrences_below_domain :
    let a : Iri := ⟨"A", by decide⟩
    let p : Iri := ⟨"P", by decide⟩
    let input : List Concept := [{ iri := a, conceptType := .ontologyClass },
      { iri := p, conceptType := .property, domain := some a }]
    let plain := ofConcepts input {}
    let grouped := ofConcepts input { groupByDomain := true }
    plain.Occurs p ∧ p ∈ plain.roots ∧ grouped.parents p = [a] ∧ grouped.Occurs p := by
  intro a p input plain grouped
  have root : p ∈ plain.roots := by decide
  have occurs : plain.Occurs p := occurs_of_mem_roots root
  refine ⟨occurs, root, by decide, ?_⟩
  refine ((regrouping_keeps_occurrences input {}).1 p occurs).resolve_right fun lost => ?_
  have way : plain.Unfolds none [p] :=
    ⟨⟨p, rfl, root, rfl⟩, List.isChain_singleton _, List.nodup_nil⟩
  obtain ⟨moved, passed, domain, under, hidden⟩ := lost none [] way
  obtain rfl := List.mem_singleton.mp passed
  have onlyDomain : domain ∈ grouped.parents p := (mem_parents input _).mpr (Or.inl under)
  obtain rfl : domain = a := by simpa using (show domain ∈ [a] from onlyDomain)
  exact hidden (occurs_of_mem_roots (by decide))

/-- A property that is moved under a class below it takes both out of the displayed tree. -/
theorem regrouping_hides_domain_below_property :
    let p : Iri := ⟨"P", by decide⟩
    let d : Iri := ⟨"D", by decide⟩
    let input : List Concept := [{ iri := p, conceptType := .property, domain := some d },
      { iri := d, conceptType := .ontologyClass, parents := [p] }]
    let plain := ofConcepts input {}
    let grouped := ofConcepts input { groupByDomain := true }
    plain.Occurs p ∧ plain.Occurs d ∧ ¬ grouped.Occurs p ∧ ¬ grouped.Occurs d := by
  intro p d input plain grouped
  have root : p ∈ plain.roots := by decide
  have rootless : grouped.roots = [] := by decide
  have hidden : ∀ iri, ¬ grouped.Occurs iri := by
    intro iri occurs
    obtain ⟨root, isRoot, _⟩ := occurs_iff_reached.mp occurs
    exact List.not_mem_nil (rootless ▸ isRoot)
  refine ⟨occurs_of_mem_roots root, ?_, hidden p, hidden d⟩
  exact occurs_iff_reached.mpr ⟨p, root, Relation.ReflTransGen.single (by decide)⟩

end ConceptTree

end CatalogBrowser
