import CatalogBrowser.Concept.Document
import CatalogBrowser.Proofs.ModelsView.Run

/-!
Neighbourhoods do not depend on how a tree groups what it displays.  So a view of the concepts of a
document selects the same whether the document answers or the view falls back on its own tree.
-/

namespace CatalogBrowser

namespace ConceptTree

theorem loadedOf_congr {left right : DisplayOptions}
    (alike : left.includeProperties = right.includeProperties) (input : List Concept) :
    loadedOf left input = loadedOf right input := by
  have shows : left.shows = right.shows := by
    funext conceptType
    cases conceptType with
    | property => exact alike
    | ontologyClass | concept | sourceGroup => rfl
  rw [loadedOf, loadedOf, shows]

theorem get?_congr {left right : ConceptTree} (concepts : left.concepts = right.concepts) :
    left.get? = right.get? := by
  funext iri
  rw [get?, get?, concepts]

theorem neighbourhood?_congr {left right : ConceptTree} (concepts : left.concepts = right.concepts)
    (hierarchy : left.hierarchy = right.hierarchy) :
    left.neighbourhood? = right.neighbourhood? := by
  have finds := get?_congr concepts
  have resolves : left.resolve = right.resolve := by
    funext iris
    rw [resolve, resolve, finds]
  have parents : left.statedParents = right.statedParents := by
    funext iri
    rw [statedParents, statedParents, hierarchy]
  have children : left.statedChildren = right.statedChildren := by
    funext iri
    rw [statedChildren, statedChildren, hierarchy]
  have siblings : left.statedSiblings = right.statedSiblings := by
    funext iri
    rw [statedSiblings, statedSiblings, parents, children]
  funext iri
  rw [neighbourhood?, neighbourhood?, finds, resolves, parents, children, siblings]

theorem neighbourhood?_regrouped {left right : DisplayOptions}
    (alike : left.includeProperties = right.includeProperties) (input : List Concept) :
    (ofConcepts input left).neighbourhood? = (ofConcepts input right).neighbourhood? := by
  have loaded := loadedOf_congr alike input
  refine neighbourhood?_congr loaded ?_
  simp only [ofConcepts, loaded]

end ConceptTree

namespace ConceptDocument

theorem tree_of_ofText {text : String} {file : ConceptDocument} (read : ofText text = .ok file) :
    file.tree = .ofConcepts file.grouped.flatten {} := by
  unfold ofText at read
  split at read
  · next parsed found =>
      obtain rfl := Except.ok.inj read
      obtain ⟨json, _, decoded⟩ := Option.bind_eq_some_iff.mp found
      obtain ⟨grouped, _, rfl⟩ := Option.map_eq_some_iff.mp decoded
      rfl
  · simp at read

end ConceptDocument

namespace ModelsView

/-- A view finds the records of a document, and the same around each of them. -/
structure Reflects (view : ModelsView) (file : ConceptDocument) : Prop where
  finds : view.tree.get? = file.tree.get?
  around : view.tree.neighbourhood? = file.tree.neighbourhood?

theorem reflects_of_tree {view : ModelsView} {file : ConceptDocument} {options : DisplayOptions}
    (built : view.tree = .ofConcepts file.grouped.flatten options)
    (own : file.tree = .ofConcepts file.grouped.flatten {})
    (properties : options.includeProperties = true) : view.Reflects file := by
  rw [← show ({} : DisplayOptions).includeProperties = true from rfl] at properties
  refine ⟨?_, ?_⟩
  · rw [built, own]
    exact ConceptTree.get?_congr (ConceptTree.loadedOf_congr properties _)
  · rw [built, own]
    exact ConceptTree.neighbourhood?_regrouped properties _

/-- A selection comes to what a document says of a concept: its hierarchy, with the graph around
it, or an error that leaves the view as it was. -/
def Follows (view : ModelsView) (file : ConceptDocument) (iri : Iri) (step : ViewStep) : Prop :=
  match file.hierarchy iri with
  | .ok hierarchy => step.result = .ok () ∧ step.view.selection = some
      { hierarchy, graph := Lineage.graphOf hierarchy (lookup file.tree hierarchy) view.layout }
  | .error missing => step.result = .error missing ∧ step.view = view

theorem Reflects.selects {view : ModelsView} {file : ConceptDocument}
    (reflects : view.Reflects file) (iri : Iri) (error : Error) :
    let answered := view.select iri (file.hierarchy iri)
    let recovered := view.select iri (.error error)
    answered.view = recovered.view ∧ answered.result = recovered.result ∧
      view.Follows file iri recovered := by
  intro answered recovered
  have around : view.tree.neighbourhood? iri = file.tree.neighbourhood? iri :=
    congrFun reflects.around iri
  cases known : file.tree.neighbourhood? iri with
  | some hierarchy =>
      have reply : file.hierarchy iri = .ok hierarchy := by rw [ConceptDocument.hierarchy, known]
      have finds : lookup view.tree hierarchy = lookup file.tree hierarchy := by
        rw [lookup, lookup, reflects.finds]
      have focused : answered.view = view.focus iri hierarchy ∧ answered.result = .ok () := by
        simp only [answered, reply, ModelsView.select, and_self]
      have same : recovered.view = view.focus iri hierarchy ∧ recovered.result = .ok () := by
        simp only [recovered, ModelsView.select, around, known, and_self]
      refine ⟨focused.1.trans same.1.symm, focused.2.trans same.2.symm, ?_⟩
      simp only [Follows, reply]
      rw [← finds, same.1, same.2]
      exact ⟨rfl, rfl⟩
  | none =>
      obtain ⟨missing, told⟩ :
          ∃ missing : Error, missing = .notFound ("concept `" ++ iri.text ++ "`") := ⟨_, rfl⟩
      have reply : file.hierarchy iri = .error missing := by
        rw [ConceptDocument.hierarchy, known, told]
      have refused : answered.view = view ∧ answered.result = .error missing := by
        simp only [answered, reply, ModelsView.select, around, known, told, and_self]
      have same : recovered.view = view ∧ recovered.result = .error missing := by
        simp only [recovered, ModelsView.select, around, known, told, and_self]
      refine ⟨refused.1.trans same.1.symm, refused.2.trans same.2.symm, ?_⟩
      simp only [Follows, reply]
      exact same.symm

/-- Selecting a concept comes to the same by the document and by falling back on the loaded tree. -/
theorem fallback_agrees_with_document :
    (∀ (input : List Concept) (left right : DisplayOptions),
      left.includeProperties = right.includeProperties → ∀ iri,
        (ConceptTree.ofConcepts input left).neighbourhood? iri =
          (ConceptTree.ofConcepts input right).neighbourhood? iri) ∧
    ∀ {text : String} {file : ConceptDocument}, ConceptDocument.ofText text = .ok file →
      ∀ {permissions : Permissions} {options : DisplayOptions} {layout : Geometry}
        {first : ModelsView}, open? permissions options layout = .ok first →
      ∀ (page : Option Page) (events : List ViewEvent),
        ViewEvent.lastGroups events = file.grouped →
        (ViewEvent.lastOptions options events).includeProperties = true →
        let view := after { first with page } events
        ∀ (iri : Iri) (error : Error),
          let answered := view.select iri (file.hierarchy iri)
          let recovered := view.select iri (.error error)
          answered.view = recovered.view ∧ answered.result = recovered.result ∧
            view.Follows file iri recovered := by
  refine ⟨fun input left right alike iri => ?_, ?_⟩
  · rw [ConceptTree.neighbourhood?_regrouped alike input]
  · intro text file read permissions options layout first opens page events loaded properties view
    have opened : ({ first with page } : ModelsView).tree = .ofConcepts [] options := by
      rw [eq_of_open? opens]
    have built := tree_after opened events
    rw [loaded] at built
    exact (reflects_of_tree built (ConceptDocument.tree_of_ofText read) properties).selects

theorem fallback_agrees_with_document_regrouped :
    let a : Iri := ⟨"a", by decide⟩
    let p : Iri := ⟨"p", by decide⟩
    let text := "\x7b\"core\":[\x7b\"iri\":\"a\",\"concept_type\":\"class\"\x7d," ++
      "\x7b\"iri\":\"p\",\"concept_type\":\"property\",\"domain\":\"a\"\x7d]\x7d"
    let options : DisplayOptions := { groupBySource := true, groupByDomain := true }
    ∃ file, ConceptDocument.ofText text = .ok file ∧
      ∃ first, open? (.uniform .readOnly) options {} = .ok first ∧
      let events : List ViewEvent := [.refresh (.ok file.grouped)]
      let view := after { first with page := none } events
      ViewEvent.lastGroups events = file.grouped ∧
      (ViewEvent.lastOptions options events).includeProperties = true ∧
      view.tree.parents p = [a] ∧
      (ConceptTree.ofConcepts file.grouped.flatten options).neighbourhood? p =
        (ConceptTree.ofConcepts file.grouped.flatten {}).neighbourhood? p ∧
      ∃ selection, selection.hierarchy.parents = [] ∧
        (view.select p (.error .json)).view.selection = some selection ∧
        (view.select p (file.hierarchy p)).view.selection = some selection := by
  intro a p text options
  have parsed : ((ConceptDocument.ofText text).toOption.map fun file =>
      ((ConceptTree.ofConcepts file.grouped.flatten options).parents p,
        (file.hierarchy p).toOption.map Neighbourhood.parents)) = some ([a], some []) := by
    decide +kernel
  cases read : ConceptDocument.ofText text with
  | error error => simp [read, Except.toOption] at parsed
  | ok file =>
      simp only [read, Except.toOption, Option.map_some, Option.some.injEq, Prod.mk.injEq] at parsed
      obtain ⟨displayed, stated⟩ := parsed
      obtain ⟨hierarchy, reply, parents⟩ :
          ∃ hierarchy, file.hierarchy p = .ok hierarchy ∧ hierarchy.parents = [] := by
        cases reply : file.hierarchy p with
        | error error => simp [reply] at stated
        | ok hierarchy => exact ⟨hierarchy, rfl, by simpa [reply] using stated⟩
      refine ⟨file, rfl, _, rfl, ?_⟩
      intro events view
      obtain ⟨agrees, selects⟩ := fallback_agrees_with_document
      obtain ⟨same, _, follows⟩ := selects read
        (rfl : open? (.uniform .readOnly) options {} = .ok _) none events rfl rfl p .json
      rw [Follows, reply] at follows
      refine ⟨rfl, rfl, displayed, agrees _ _ _ rfl p, _, parents, follows.2, ?_⟩
      rw [same]
      exact follows.2

end ModelsView

end CatalogBrowser
