import CatalogBrowser.Proofs.ConceptTree.Visibility
import CatalogBrowser.Proofs.ModelsView.Run

/-!
The selected concept and the expanded nodes: which events bring the selection in sight, which keep
it there, and how fresh concepts can take it out of sight.
-/

namespace CatalogBrowser

def ViewEvent.Focal : ViewEvent → Prop
  | .select iri reply => ∀ hierarchy, reply = .ok hierarchy → hierarchy.concept.iri = iri
  | .click _ reply => ∀ iri hierarchy, reply iri = .ok hierarchy → hierarchy.concept.iri = iri
  | .refresh _ | .redisplay _ | .toggle _ | .turn _ => True

namespace ModelsView

def selected? (view : ModelsView) : Option Iri :=
  view.selection.map fun selection => selection.hierarchy.concept.iri

/-- All that must be expanded for the selected concept is. -/
def Revealed (view : ModelsView) : Prop :=
  ∀ iri ∈ view.selected?, ∀ node ∈ view.tree.nodesToExpand iri, node ∈ view.expanded

/-- An event that is about the selection: it selects a concept or displays the selected one
differently. -/
def Focuses (view : ModelsView) : ViewEvent → Prop
  | .select .. | .redisplay _ => True
  | .click id _ => (view.clicked? id).isSome
  | .refresh _ | .toggle _ | .turn _ => False

/-- An event that neither collapses what the selection needs nor moves the selection below nodes
that are not expanded. -/
def Spares (view : ModelsView) : ViewEvent → Prop
  | .refresh (.ok grouped) => ∀ iri ∈ view.selected?,
    ∀ node ∈ (ConceptTree.ofConcepts grouped.flatten view.tree.options).nodesToExpand iri,
      node ∈ view.expanded
  | .toggle node => node ∈ view.expanded →
    ∀ iri ∈ view.selected?, node ∉ view.tree.nodesToExpand iri
  | .refresh (.error _) | .redisplay _ | .select .. | .click .. | .turn _ => True

section

variable {view : ModelsView}

theorem mem_expanded_reveal {iri : Iri} {node : DisplayNode} :
    node ∈ (view.reveal iri).expanded ↔
      node ∈ view.expanded ∨ node ∈ view.tree.nodesToExpand iri :=
  NodeSet.mem_insertAll

theorem revealed_of_selection_none (nothing : view.selection = none) : view.Revealed := by
  intro iri selected
  simp [selected?, nothing] at selected

theorem focus_selected {iri : Iri} {hierarchy : Neighbourhood}
    (same : hierarchy.concept.iri = iri) : (view.focus iri hierarchy).selected? = some iri :=
  congrArg some same

theorem focus_revealed {iri : Iri} {hierarchy : Neighbourhood}
    (same : hierarchy.concept.iri = iri) : (view.focus iri hierarchy).Revealed := by
  intro focal selected node needed
  obtain rfl : iri = focal := Option.some.inj ((focus_selected same).symm.trans selected)
  exact mem_expanded_reveal.mpr (Or.inr needed)

theorem redisplay_revealed (view : ModelsView) (options : DisplayOptions) :
    (view.redisplay options).Revealed := by
  unfold redisplay
  simp only
  split
  · next selection chosen =>
      intro focal selected node needed
      have same : selection.hierarchy.concept.iri = focal := by
        simpa [selected?, reveal, chosen] using selected
      rw [← same] at needed
      exact mem_expanded_reveal.mpr (Or.inr needed)
  · next nothing => exact revealed_of_selection_none nothing

theorem neighbourhood?_focal {tree : ConceptTree} {iri : Iri} {hierarchy : Neighbourhood}
    (found : tree.neighbourhood? iri = some hierarchy) : hierarchy.concept.iri = iri := by
  obtain ⟨concept, held, rfl⟩ := Option.map_eq_some_iff.mp found
  exact ConceptTree.iri_of_get? held

theorem Selects.revealed {iri : Iri} {reply : Except Error Neighbourhood} {step : ViewStep}
    (selects : view.Selects iri reply step)
    (focal : ∀ hierarchy, reply = .ok hierarchy → hierarchy.concept.iri = iri)
    (succeeds : step.result = .ok ()) : step.view.selected? = some iri ∧ step.view.Revealed := by
  cases selects with
  | answered hierarchy =>
      have same := focal hierarchy rfl
      exact ⟨focus_selected same, focus_revealed same⟩
  | recovered error found =>
      have same := neighbourhood?_focal found
      exact ⟨focus_selected same, focus_revealed same⟩
  | unknown error missing => simp at succeeds

theorem revealed_of_focuses {event : ViewEvent} (focal : event.Focal)
    (focuses : view.Focuses event) (succeeds : (view.step event).result = .ok ()) :
    (view.step event).view.Revealed := by
  cases event with
  | refresh reply | toggle node | turn change => exact focuses.elim
  | redisplay options => exact view.redisplay_revealed options
  | select iri reply => exact ((view.select_selects iri reply).revealed focal succeeds).2
  | click id reply =>
      simp only [step] at succeeds ⊢
      rcases view.click_cases id reply with ⟨missed, _⟩ | ⟨iri, _, selects⟩
      · simp [Focuses, missed] at focuses
      · exact (selects.revealed (focal iri) succeeds).2

theorem revealed_toggle (revealed : view.Revealed) (node : DisplayNode) :
    (view.toggle node).1.Revealed ↔ view.Spares (.toggle node) := by
  by_cases opened : node ∈ view.expanded
  · have same : (view.toggle node).1 =
        { view with expanded := view.expanded.filter fun other => other ≠ node } := by
      simp [toggle, opened]
    rw [same]
    constructor
    · intro still _ iri selected needed
      have kept := still iri selected node needed
      simp at kept
    · intro spared iri selected other needed
      have different : other ≠ node := by
        rintro rfl
        exact spared opened iri selected needed
      simpa [different] using revealed iri selected other needed
  · have same : (view.toggle node).1 = { view with expanded := view.expanded.insert node } := by
      simp [toggle, opened]
    rw [same]
    constructor
    · intro _ already
      exact absurd already opened
    · intro _ iri selected other needed
      exact NodeSet.mem_insert.mpr (Or.inr (revealed iri selected other needed))

theorem revealed_step {event : ViewEvent} (focal : event.Focal) (revealed : view.Revealed) :
    (view.step event).view.Revealed ↔ view.Spares event := by
  have kept : (view.step event).view = view → view.Spares event →
      ((view.step event).view.Revealed ↔ view.Spares event) := by
    intro same spared
    rw [same]
    exact iff_of_true revealed spared
  cases outcome : (view.step event).result with
  | error error =>
      refine kept (step_of_error outcome) ?_
      cases event with
      | refresh reply =>
          cases reply with
          | ok grouped => simp [step, refresh] at outcome
          | error _ => trivial
      | toggle node => simp [step] at outcome
      | redisplay _ | select _ _ | click _ _ | turn _ => trivial
  | ok done =>
      cases event with
      | refresh reply =>
          cases reply with
          | ok grouped => exact Iff.rfl
          | error error => simp [step, refresh] at outcome
      | toggle node => exact revealed_toggle revealed node
      | turn change => exact iff_of_true revealed trivial
      | redisplay options => exact iff_of_true (view.redisplay_revealed options) trivial
      | select iri reply => exact iff_of_true (revealed_of_focuses focal trivial outcome) trivial
      | click id reply =>
          rcases view.click_cases id reply with ⟨_, nothing⟩ | ⟨iri, hit, _⟩
          · exact kept (congrArg ViewStep.view nothing) trivial
          · have focuses : view.Focuses (.click id reply) := by simp [Focuses, hit]
            exact iff_of_true (revealed_of_focuses focal focuses outcome) trivial

end

theorem visible_of_revealed {view : ModelsView} {input : List Concept} {options : DisplayOptions}
    (built : view.tree = .ofConcepts input options) (revealed : view.Revealed) {iri : Iri}
    (selected : iri ∈ view.selected?) (reached : view.tree.Reaches (.concept iri)) :
    view.tree.Visible view.expanded (.concept iri) := by
  have linked : WellLinked view.tree.order view.tree.parents view.tree.children := by
    rw [built]
    exact ConceptTree.displayLinks_wellLinked input options
  obtain ⟨front, chain⟩ := reached.exists_chain
  refine chain.visible (fun node passed => ?_) _ (by simp)
  exact revealed iri selected node (chain.expands linked passed)

def SparedBy (view : ModelsView) (events : List ViewEvent) : Prop :=
  ∀ before event rest, events = before ++ event :: rest → (view.after before).Spares event

theorem revealed_after {view : ModelsView} (revealed : view.Revealed) {events : List ViewEvent}
    (focal : ∀ event ∈ events, event.Focal) (spared : view.SparedBy events) :
    (view.after events).Revealed := by
  induction events generalizing view with
  | nil => exact revealed
  | cons event events ih =>
      have next : (view.step event).view.Revealed :=
        (revealed_step (focal event List.mem_cons_self) revealed).mpr (spared [] event events rfl)
      refine ih next (fun later member => focal later (List.mem_cons_of_mem _ member)) ?_
      rintro before later rest rfl
      exact spared (event :: before) later rest rfl

/-- A selection expands all that it needs, and only fresh concepts or a toggled node can undo that.
-/
theorem runs_reveal_selection {permissions : Permissions} {options : DisplayOptions}
    {layout : Geometry} {first : ModelsView}
    (opens : open? permissions options layout = .ok first) (page : Option Page)
    {events : List ViewEvent} (focal : ∀ event ∈ events, event.Focal) :
    let start := { first with page }
    let view := start.after events
    (∀ event, event.Focal → let step := view.step event
      (∀ iri reply, event = .select iri reply → step.result = .ok () →
        step.view.selected? = some iri) ∧
      (view.Focuses event → step.result = .ok () → step.view.Revealed) ∧
      (∀ grouped, event = .refresh (.ok grouped) →
        (step.view.Revealed ↔ view.Spares event)) ∧
      (view.Revealed → (step.view.Revealed ↔ view.Spares event)) ∧
      (step.view.Revealed → ∀ iri ∈ step.view.selected?,
        step.view.tree.Reaches (.concept iri) →
          step.view.tree.Visible step.view.expanded (.concept iri))) ∧
    (start.SparedBy events → view.Revealed) := by
  intro start view
  have fresh : start = { layout, tree := .ofConcepts [] options, page } := by
    simp only [start, eq_of_open? opens]
  have opened : start.tree = .ofConcepts [] options := by rw [fresh]
  refine ⟨?_, ?_⟩
  · intro event answers step
    refine ⟨?_, revealed_of_focuses answers, ?_, revealed_step answers, ?_⟩
    · rintro iri reply rfl succeeds
      exact ((view.select_selects iri reply).revealed answers succeeds).1
    · rintro grouped rfl
      exact Iff.rfl
    · intro revealed iri selected reached
      exact visible_of_revealed (tree_step (tree_after opened events) event) revealed selected
        reached
  · intro spared
    have unselected : start.selection = none := by rw [fresh]
    exact revealed_after (revealed_of_selection_none unselected) focal spared

theorem runs_reveal_selection_below_parent :
    let a : Iri := ⟨"A", by decide⟩
    let b : Iri := ⟨"B", by decide⟩
    let below : Concept := { iri := b, conceptType := .ontologyClass, parents := [a] }
    let groups := ConceptGroups.empty.insert ⟨"core"⟩ [{ iri := a, conceptType := .ontologyClass },
      below]
    let events : List ViewEvent := [.select b (.ok { concept := below }), .refresh (.ok groups)]
    ∃ first, open? (.uniform .readOnly) {} {} = .ok first ∧
      (∀ event ∈ events, event.Focal) ∧
      let step := (after { first with page := none } events).step
        (.select b (.ok { concept := below }))
      step.result = .ok () ∧ .concept a ∈ step.view.expanded ∧
        step.view.tree.Visible step.view.expanded (.concept b) := by
  intro a b below groups events
  have answers : (ViewEvent.select b (.ok { concept := below })).Focal := by
    intro hierarchy same
    cases same
    rfl
  have focal : ∀ event ∈ events, event.Focal := by
    intro event member
    rcases List.mem_cons.mp member with rfl | later
    · exact answers
    · obtain rfl := List.mem_singleton.mp later
      trivial
  refine ⟨_, rfl, focal, ?_⟩
  intro step
  obtain ⟨selects, reveals, _, _, shows⟩ := (runs_reveal_selection
    (rfl : open? (.uniform .readOnly) {} {} = .ok _) none focal).1
    (.select b (.ok { concept := below })) answers
  have revealed : step.view.Revealed := reveals trivial rfl
  have selected : step.view.selected? = some b := selects b _ rfl rfl
  have tree : step.view.tree = .ofConcepts groups.flatten {} := rfl
  refine ⟨rfl, revealed b selected _ ?_, shows revealed b selected ?_⟩
  · rw [ConceptTree.mem_nodesToExpand, tree]
    exact Or.inl ⟨a, rfl, by decide, Relation.TransGen.single (by decide)⟩
  · rw [tree]
    exact ⟨.concept a, by decide, Relation.ReflTransGen.single (by decide)⟩

/-- Fresh concepts that place the selected one below a parent succeed in hiding it: the parent is
not expanded. -/
theorem refresh_hides_selection :
    let a : Iri := ⟨"A", by decide⟩
    let b : Iri := ⟨"B", by decide⟩
    let alone : Concept := { iri := b, conceptType := .ontologyClass }
    let groups := ConceptGroups.empty.insert ⟨"core"⟩ [alone]
    let later := ConceptGroups.empty.insert ⟨"core"⟩ [{ iri := a, conceptType := .ontologyClass },
      { iri := b, conceptType := .ontologyClass, parents := [a] }]
    let events : List ViewEvent := [.refresh (.ok groups), .select b (.ok { concept := alone })]
    ∃ first, open? (.uniform .readOnly) {} {} = .ok first ∧
      (∀ event ∈ events, event.Focal) ∧
      let step := (first.after events).step (.refresh (.ok later))
      step.result = .ok () ∧ step.view.selected? = some b ∧
        .concept a ∈ step.view.tree.nodesToExpand b ∧ .concept a ∉ step.view.expanded ∧
        step.view.tree.Reaches (.concept b) ∧
        ¬ step.view.tree.Visible step.view.expanded (.concept b) := by
  intro a b alone groups later events
  refine ⟨_, rfl, ?_, ?_⟩
  · intro event member
    rcases List.mem_cons.mp member with rfl | rest
    · trivial
    · obtain rfl := List.mem_singleton.mp rest
      intro hierarchy same
      cases same
      rfl
  intro step
  -- selecting had nothing to expand above a root, and fresh concepts expand nothing
  have collapsed : step.view.expanded = [] := by
    have nothing : (ConceptTree.ofConcepts groups.flatten {}).nodesToExpand b = [] :=
      ConceptTree.nodesToExpand_of_parents_nil (by decide) (Or.inl rfl)
    exact congrArg (NodeSet.insertAll []) nothing
  have tree : step.view.tree = .ofConcepts later.flatten {} := rfl
  refine ⟨rfl, rfl, ?_, by simp [collapsed], ?_, ?_⟩
  · rw [ConceptTree.mem_nodesToExpand, tree]
    exact Or.inl ⟨a, rfl, by decide, Relation.TransGen.single (by decide)⟩
  · rw [tree]
    exact ⟨.concept a, by decide, Relation.ReflTransGen.single (by decide)⟩
  · rw [collapsed, tree]
    intro visible
    cases visible with
    | top listed => exact absurd listed (by decide)
    | under _ opened _ => simp at opened

end ModelsView

end CatalogBrowser
