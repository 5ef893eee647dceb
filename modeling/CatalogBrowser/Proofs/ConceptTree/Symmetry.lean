import CatalogBrowser.Proofs.ConceptTree.Neighbourhood

/-!
Neighbourhoods mirror each other: a concept is below what is above it, and beside what is beside
it.
-/

namespace CatalogBrowser.ConceptTree

variable {input : List Concept} {options : DisplayOptions}

theorem get?_of_mem {concept : Concept} (member : concept ∈ (ofConcepts input options).concepts) :
    (ofConcepts input options).get? concept.iri = some concept := by
  obtain ⟨held, found⟩ := get?_of_mem_order (List.mem_map_of_mem member)
  have loaded := List.mem_of_find?_eq_some found
  have nodup : (ofConcepts input options).order.Nodup := nodup_order_loadedOf options input
  obtain rfl := List.inj_on_of_nodup_map nodup loaded member (iri_of_get? found)
  exact found

theorem neighbourhood?_of_mem {concept : Concept}
    (member : concept ∈ (ofConcepts input options).concepts) :
    (ofConcepts input options).neighbourhood? concept.iri = some
      { concept
        parents := (ofConcepts input options).resolve
          ((ofConcepts input options).statedParents concept.iri)
        children := (ofConcepts input options).resolve
          ((ofConcepts input options).statedChildren concept.iri)
        siblings := (ofConcepts input options).resolve
          ((ofConcepts input options).statedSiblings concept.iri) } := by
  rw [neighbourhood?, get?_of_mem member, Option.map_some]

theorem mem_resolve_of_mem {concept : Concept}
    (member : concept ∈ (ofConcepts input options).concepts) {iris : List Iri} :
    concept ∈ (ofConcepts input options).resolve iris ↔ concept.iri ∈ iris := by
  rw [mem_resolve]
  exact and_iff_left (get?_of_mem member)

theorem statedChildren_inside {iri child : Iri}
    (listed : child ∈ (ofConcepts input options).statedChildren iri) :
    child ∈ (ofConcepts input options).order :=
  ((statedLinks_wellLinked input options).ordered iri).subset listed

theorem statedSiblings_inside {iri sibling : Iri}
    (listed : sibling ∈ (ofConcepts input options).statedSiblings iri) :
    sibling ∈ (ofConcepts input options).order := by
  obtain ⟨_, parent, _, above⟩ := mem_statedSiblings.mp listed
  have linked := statedLinks_wellLinked input options
  exact statedChildren_inside ((linked.converse parent sibling).mpr above)

theorem mem_statedSiblings_iff {iri other : Iri} :
    other ∈ (ofConcepts input options).statedSiblings iri ↔ other ≠ iri ∧
      ∃ parent, EffectiveParent (ofConcepts input options).concepts parent iri ∧
        EffectiveParent (ofConcepts input options).concepts parent other := by
  simp only [mem_statedSiblings, mem_statedParents]

theorem mem_statedSiblings_comm {iri other : Iri} :
    other ∈ (ofConcepts input options).statedSiblings iri ↔
      iri ∈ (ofConcepts input options).statedSiblings other := by
  simp only [mem_statedSiblings, ne_comm (a := other) (b := iri), and_comm]

theorem resolve_distinct {iris : List Iri} (nodup : iris.Nodup)
    (inside : ∀ iri ∈ iris, iri ∈ (ofConcepts input options).order) :
    (((ofConcepts input options).resolve iris).map Concept.iri).Nodup ∧
      ∀ entry ∈ (ofConcepts input options).resolve iris,
        (ofConcepts input options).get? entry.iri = some entry := by
  rw [map_iri_resolve inside]
  exact ⟨nodup, fun entry member => (mem_resolve.mp member).2⟩

/-- Parents and children mirror each other, siblings share a parent, and a neighbourhood lists
loaded records without repeats. -/
theorem neighbourhoods_mirror (input : List Concept) (options : DisplayOptions) :
    let tree := ofConcepts input options
    (∀ first ∈ tree.concepts, ∀ second ∈ tree.concepts, ∃ around beyond,
      tree.neighbourhood? first.iri = some around ∧
      tree.neighbourhood? second.iri = some beyond ∧
      (second ∈ around.parents ↔ first ∈ beyond.children) ∧
      (second ∈ around.siblings ↔ second ≠ first ∧
        ∃ parent, EffectiveParent tree.concepts parent first.iri ∧
          EffectiveParent tree.concepts parent second.iri) ∧
      (second ∈ around.siblings ↔ first ∈ beyond.siblings)) ∧
    ∀ iri, ∀ around ∈ tree.neighbourhood? iri,
      ∀ entries ∈ [around.parents, around.children, around.siblings],
        (entries.map Concept.iri).Nodup ∧
        ∀ entry ∈ entries, tree.get? entry.iri = some entry := by
  intro tree
  have linked := statedLinks_wellLinked input options
  constructor
  · intro first firstMember second secondMember
    refine ⟨_, _, neighbourhood?_of_mem firstMember, neighbourhood?_of_mem secondMember, ?_, ?_, ?_⟩
    · rw [mem_resolve_of_mem secondMember, mem_resolve_of_mem firstMember]
      exact (linked.converse second.iri first.iri).symm
    · have different : second.iri ≠ first.iri ↔ second ≠ first := by
        refine not_congr ⟨fun same => ?_, congrArg Concept.iri⟩
        have nodup : tree.order.Nodup := nodup_order_loadedOf options input
        exact List.inj_on_of_nodup_map nodup secondMember firstMember same
      rw [mem_resolve_of_mem secondMember, mem_statedSiblings_iff, different]
    · rw [mem_resolve_of_mem secondMember, mem_resolve_of_mem firstMember]
      exact mem_statedSiblings_comm
  · intro iri around found entries listed
    obtain ⟨_, _, parents, children, siblings⟩ := eq_of_neighbourhood? found
    rw [parents, children, siblings] at listed
    simp only [List.mem_cons, List.not_mem_nil, or_false] at listed
    rcases listed with rfl | rfl | rfl
    · exact resolve_distinct (linked.parents_nodup iri) fun _ => statedParents_inside
    · exact resolve_distinct (linked.children_nodup iri) fun _ => statedChildren_inside
    · exact resolve_distinct (nodup_distinct _) fun _ => statedSiblings_inside

theorem neighbourhoods_mirror_adopted :
    let a : Iri := ⟨"A", by decide⟩
    let b : Iri := ⟨"B", by decide⟩
    let c : Iri := ⟨"C", by decide⟩
    let above : Concept := { iri := a, conceptType := .ontologyClass, children := [c] }
    let stating : Concept := { iri := b, conceptType := .ontologyClass, parents := [a] }
    let adopted : Concept := { iri := c, conceptType := .concept }
    let tree := ofConcepts [above, stating, adopted] {}
    stating ∈ tree.concepts ∧ adopted ∈ tree.concepts ∧ ∃ around beyond,
      tree.neighbourhood? b = some around ∧ tree.neighbourhood? c = some beyond ∧
      adopted ∈ around.siblings ∧ stating ∈ beyond.siblings ∧
      around.siblings ∈ [around.parents, around.children, around.siblings] ∧
      (around.siblings.map Concept.iri).Nodup := by
  intro a b c above stating adopted tree
  have statingLoaded : stating ∈ tree.concepts := by decide
  have adoptedLoaded : adopted ∈ tree.concepts := by decide
  have aboveLoaded : above ∈ tree.concepts := by decide
  obtain ⟨mirrored, listed⟩ := neighbourhoods_mirror [above, stating, adopted] {}
  obtain ⟨around, beyond, found, foundBeyond, _, beside, both⟩ :=
    mirrored stating statingLoaded adopted adoptedLoaded
  have overStating : EffectiveParent tree.concepts a b :=
    ⟨by decide, above, aboveLoaded, stating, statingLoaded, rfl, rfl, Or.inl List.mem_cons_self⟩
  have overAdopted : EffectiveParent tree.concepts a c :=
    ⟨by decide, above, aboveLoaded, adopted, adoptedLoaded, rfl, rfl,
      Or.inr ⟨rfl, List.mem_cons_self⟩⟩
  have siblings : adopted ∈ around.siblings :=
    beside.mpr ⟨by decide, a, overStating, overAdopted⟩
  have last : around.siblings ∈ [around.parents, around.children, around.siblings] := by simp
  exact ⟨statingLoaded, adoptedLoaded, around, beyond, found, foundBeyond, siblings,
    both.mp siblings, last, (listed b around found _ last).1⟩

end CatalogBrowser.ConceptTree
