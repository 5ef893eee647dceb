import CatalogBrowser.ModelsView
import Mathlib.Data.List.Forall2
import Mathlib.Data.List.Induction

/-!
Runs of the view of the semantic models: what its tree is made of, which calls an event makes, and
what the user is told of those that fail.
-/

namespace CatalogBrowser

def errorOf? {α : Type} : Except Error α → Option Error
  | .ok _ => none
  | .error error => some error

inductive ViewEvent where
  | refresh (reply : Except Error ConceptGroups)
  | redisplay (options : DisplayOptions)
  | select (iri : Iri) (reply : Except Error Neighbourhood)
  | click (id : String) (reply : Iri → Except Error Neighbourhood)
  | toggle (node : DisplayNode)
  | turn (change : Page → Page)

namespace ViewEvent

def groups? : ViewEvent → Option ConceptGroups
  | .refresh (.ok grouped) => some grouped
  | .refresh (.error _) | .redisplay _ | .select .. | .click .. | .toggle _ | .turn _ => none

def options? : ViewEvent → Option DisplayOptions
  | .redisplay options => some options
  | .refresh _ | .select .. | .click .. | .toggle _ | .turn _ => none

def failure? : ViewEvent → ConceptCall → Option Error
  | .refresh reply, .allConcepts => errorOf? reply
  | .select _ reply, .hierarchy _ => errorOf? reply
  | .click _ reply, .hierarchy iri => errorOf? (reply iri)
  | _, _ => none

def lastGroups (events : List ViewEvent) : ConceptGroups :=
  (events.filterMap groups?).getLast?.getD .empty

def lastOptions (first : DisplayOptions) (events : List ViewEvent) : DisplayOptions :=
  (events.filterMap options?).getLast?.getD first

theorem getLast?_filterMap_concat {α : Type} (part : ViewEvent → Option α)
    (events : List ViewEvent) (event : ViewEvent) :
    ((events ++ [event]).filterMap part).getLast? =
      (part event).or (events.filterMap part).getLast? := by
  rw [List.filterMap_append]
  cases found : part event with
  | none => simp [found]
  | some item => simp [found]

theorem lastGroups_concat (events : List ViewEvent) (event : ViewEvent) :
    lastGroups (events ++ [event]) = event.groups?.getD (lastGroups events) := by
  unfold lastGroups
  rw [getLast?_filterMap_concat]
  cases event.groups? <;> rfl

theorem lastOptions_concat (first : DisplayOptions) (events : List ViewEvent)
    (event : ViewEvent) :
    lastOptions first (events ++ [event]) = event.options?.getD (lastOptions first events) := by
  unfold lastOptions
  rw [getLast?_filterMap_concat]
  cases event.options? <;> rfl

end ViewEvent

namespace ModelsView

def step (view : ModelsView) : ViewEvent → ViewStep
  | .refresh reply => view.refresh reply
  | .redisplay options => { view := view.redisplay options }
  | .select iri reply => view.select iri reply
  | .click id reply => view.click id reply
  | .toggle node => { view := (view.toggle node).1 }
  | .turn change => { view := { view with page := view.page.map change } }

def after (view : ModelsView) (events : List ViewEvent) : ModelsView :=
  events.foldl (fun view event => (view.step event).view) view

def call? (view : ModelsView) : ViewEvent → Option ConceptCall
  | .refresh _ => some .allConcepts
  | .select iri _ => some (.hierarchy iri)
  | .click id _ => view.selection.bind fun selection =>
    (selection.graph.conceptAt? id (lookup view.tree selection.hierarchy)).map fun concept =>
      .hierarchy concept.iri
  | .redisplay _ | .toggle _ | .turn _ => none

section

variable (view : ModelsView)

inductive Selects (iri : Iri) : Except Error Neighbourhood → ViewStep → Prop
  | answered (hierarchy : Neighbourhood) :
      Selects iri (.ok hierarchy) { view := view.focus iri hierarchy, calls := [.hierarchy iri] }
  | recovered {hierarchy} (error : Error) : view.tree.neighbourhood? iri = some hierarchy →
      Selects iri (.error error)
        { view := view.focus iri hierarchy
          notes := [.ofError "Failed to load hierarchy" error]
          calls := [.hierarchy iri] }
  | unknown (error : Error) : view.tree.neighbourhood? iri = none →
      Selects iri (.error error)
        { view
          result := .error (.notFound ("concept `" ++ iri.text ++ "`"))
          notes := [.ofError "Failed to load hierarchy" error]
          calls := [.hierarchy iri] }

theorem select_selects (iri : Iri) (reply : Except Error Neighbourhood) :
    view.Selects iri reply (view.select iri reply) := by
  cases reply with
  | ok hierarchy => exact .answered hierarchy
  | error error =>
      cases found : view.tree.neighbourhood? iri with
      | some hierarchy =>
          simp only [select, found]
          exact .recovered error found
      | none =>
          simp only [select, found]
          exact .unknown error found

end

section

variable {view : ModelsView}

@[simp] theorem redisplay_tree (view : ModelsView) (options : DisplayOptions) :
    (view.redisplay options).tree = view.tree.redisplay options := by
  simp only [redisplay]
  split <;> rfl

@[simp] theorem toggle_tree (view : ModelsView) (node : DisplayNode) :
    (view.toggle node).1.tree = view.tree := by
  unfold toggle
  split <;> rfl

theorem Selects.tree {iri : Iri} {reply : Except Error Neighbourhood} {step : ViewStep}
    (selects : view.Selects iri reply step) : step.view.tree = view.tree := by
  cases selects <;> rfl

theorem Selects.view_of_error {iri : Iri} {reply : Except Error Neighbourhood} {step : ViewStep}
    (selects : view.Selects iri reply step) {error : Error} (failed : step.result = .error error) :
    step.view = view := by
  cases selects with
  | answered | recovered => simp at failed
  | unknown => rfl

def Reports (error : Error) (note : Notification) : Prop :=
  ∃ title, note = .ofError title error ∧ note.level = .error

theorem Selects.reports {iri : Iri} {reply : Except Error Neighbourhood} {step : ViewStep}
    (selects : view.Selects iri reply step) :
    step.calls = [.hierarchy iri] ∧ List.Forall₂ Reports (errorOf? reply).toList step.notes := by
  cases selects with
  | answered hierarchy => exact ⟨rfl, .nil⟩
  | recovered error found => exact ⟨rfl, .cons ⟨_, rfl, rfl⟩ .nil⟩
  | unknown error missing => exact ⟨rfl, .cons ⟨_, rfl, rfl⟩ .nil⟩

theorem call?_click (view : ModelsView) (id : String)
    (reply : Iri → Except Error Neighbourhood) :
    view.call? (.click id reply) = (view.clicked? id).map ConceptCall.hierarchy := by
  unfold call? clicked?
  cases view.selection with
  | none => rfl
  | some selection =>
      cases found : selection.graph.conceptAt? id (lookup view.tree selection.hierarchy) with
      | none => simp [found]
      | some concept => simp [found]

theorem click_cases (view : ModelsView) (id : String) (reply : Iri → Except Error Neighbourhood) :
    view.clicked? id = none ∧ view.click id reply = { view } ∨
      ∃ iri, view.clicked? id = some iri ∧ view.Selects iri (reply iri) (view.click id reply) := by
  unfold click
  cases clicked : view.clicked? id with
  | none => exact Or.inl ⟨rfl, rfl⟩
  | some iri => exact Or.inr ⟨iri, rfl, view.select_selects iri (reply iri)⟩

theorem step_of_error {event : ViewEvent} {error : Error}
    (failed : (view.step event).result = .error error) : (view.step event).view = view := by
  cases event with
  | refresh reply =>
      cases reply with
      | ok grouped => simp [step, refresh] at failed
      | error _ => rfl
  | redisplay options | toggle node | turn change => simp [step] at failed
  | select iri reply => exact (view.select_selects iri reply).view_of_error failed
  | click id reply =>
      simp only [step] at failed ⊢
      rcases view.click_cases id reply with ⟨_, nothing⟩ | ⟨iri, _, selects⟩
      · rw [nothing]
      · exact selects.view_of_error failed

theorem calls_step (view : ModelsView) (event : ViewEvent) :
    (view.step event).calls = (view.call? event).toList := by
  cases event with
  | refresh reply => cases reply <;> rfl
  | redisplay options | toggle node | turn change => rfl
  | select iri reply => exact (view.select_selects iri reply).reports.1
  | click id reply =>
      rw [call?_click, step]
      rcases view.click_cases id reply with ⟨missed, nothing⟩ | ⟨iri, hit, selects⟩
      · rw [missed, nothing]
        rfl
      · rw [hit]
        exact selects.reports.1

theorem reports_step (view : ModelsView) (event : ViewEvent) :
    List.Forall₂ Reports ((view.step event).calls.filterMap event.failure?)
      (view.step event).notes := by
  have single : ∀ call : Option ConceptCall, call.toList.filterMap event.failure? =
      (call.bind event.failure?).toList := by
    intro call
    cases call with
    | none => rfl
    | some call => cases failed : event.failure? call <;> simp [failed]
  rw [calls_step, single]
  cases event with
  | refresh reply =>
      cases reply with
      | ok grouped => exact .nil
      | error error => exact .cons ⟨_, rfl, rfl⟩ .nil
  | redisplay options | toggle node | turn change => exact .nil
  | select iri reply => exact (view.select_selects iri reply).reports.2
  | click id reply =>
      rw [call?_click, step]
      rcases view.click_cases id reply with ⟨missed, nothing⟩ | ⟨iri, hit, selects⟩
      · rw [missed, nothing]
        exact .nil
      · rw [hit]
        exact selects.reports.2

theorem tree_step {input : List Concept} {options : DisplayOptions}
    (built : view.tree = .ofConcepts input options) (event : ViewEvent) :
    (view.step event).view.tree = .ofConcepts ((event.groups?.map ConceptGroups.flatten).getD input)
      (event.options?.getD options) := by
  cases event with
  | refresh reply =>
      cases reply with
      | ok grouped =>
          simp only [step, refresh, built]
          rfl
      | error error => exact built
  | redisplay options =>
      simp only [step, redisplay_tree, built]
      rfl
  | toggle node =>
      simp only [step, toggle_tree, built]
      rfl
  | turn change => exact built
  | select iri reply => exact (view.select_selects iri reply).tree.trans built
  | click id reply =>
      simp only [step]
      rcases view.click_cases id reply with ⟨_, nothing⟩ | ⟨iri, _, selects⟩
      · rw [nothing]
        exact built
      · exact selects.tree.trans built

end

theorem tree_after {view : ModelsView} {options : DisplayOptions}
    (built : view.tree = .ofConcepts [] options) (events : List ViewEvent) :
    (view.after events).tree = .ofConcepts (ViewEvent.lastGroups events).flatten
      (ViewEvent.lastOptions options events) := by
  induction events using List.reverseRecOn with
  | nil => exact built
  | append_singleton events event ih =>
      have goesOn : view.after (events ++ [event]) = ((view.after events).step event).view :=
        List.foldl_append ..
      rw [goesOn, tree_step ih, ViewEvent.lastGroups_concat, ViewEvent.lastOptions_concat]
      cases event.groups? <;> rfl

theorem eq_of_open? {permissions : Permissions} {options : DisplayOptions} {layout : Geometry}
    {first : ModelsView} (opens : open? permissions options layout = .ok first) :
    first = { layout, tree := .ofConcepts [] options } := by
  unfold open? at opens
  cases granted : permissions.demand .semanticModels .readOnly with
  | error error =>
      rw [granted] at opens
      cases opens
  | ok allowed =>
      rw [granted] at opens
      cases opens
      rfl

/-- The tree is built from the last concepts under the last options, and a step that fails leaves
the view as it was. -/
theorem runs_keep_state_and_report {permissions : Permissions} {options : DisplayOptions}
    {layout : Geometry} {first : ModelsView}
    (opens : open? permissions options layout = .ok first) (page : Option Page)
    (events : List ViewEvent) :
    let view := after { first with page } events
    view.tree = .ofConcepts (ViewEvent.lastGroups events).flatten
      (ViewEvent.lastOptions options events) ∧
    ∀ event, let step := view.step event
      (∀ error, step.result = .error error → step.view = view) ∧
      step.calls = (view.call? event).toList ∧
      List.Forall₂ Reports (step.calls.filterMap event.failure?) step.notes := by
  intro view
  have opened : ({ first with page } : ModelsView).tree = .ofConcepts [] options := by
    rw [eq_of_open? opens]
  refine ⟨tree_after opened events, ?_⟩
  intro event
  exact ⟨fun _ => step_of_error, view.calls_step event, view.reports_step event⟩

theorem runs_keep_state_and_report_recovery :
    let iri : Iri := ⟨"B", by decide⟩
    let groups := ConceptGroups.empty.insert ⟨"core"⟩ [{ iri, conceptType := .ontologyClass }]
    let events : List ViewEvent :=
      [.redisplay { groupBySource := true }, .refresh (.ok groups), .refresh (.error .json)]
    ∃ first, open? (.uniform .readOnly) {} {} = .ok first ∧
      let view := after { first with page := none } events
      view.tree = .ofConcepts groups.flatten { groupBySource := true } ∧
      (view.step (.select iri (.error .json))).result = .ok () ∧
      (view.step (.select iri (.error .json))).calls = [.hierarchy iri] ∧
      ∃ note, (view.step (.select iri (.error .json))).notes = [note] ∧ note.level = .error := by
  intro iri groups events
  refine ⟨_, rfl, ?_⟩
  intro view
  obtain ⟨tree, steps⟩ := runs_keep_state_and_report
    (rfl : open? (.uniform .readOnly) {} {} = .ok _) none events
  obtain ⟨_, calls, told⟩ := steps (.select iri (.error .json))
  have known : (view.tree.neighbourhood? iri).isSome = true := by
    rw [tree]
    decide
  obtain ⟨hierarchy, found⟩ := Option.isSome_iff_exists.mp known
  refine ⟨tree, ?_, calls, ?_⟩
  · simp only [step, select, found]
  · rw [calls] at told
    cases told with
    | cons report rest =>
        obtain ⟨title, same, level⟩ := report
        cases rest
        exact ⟨_, rfl, level⟩

end ModelsView

end CatalogBrowser
