import CatalogBrowser.Catalog.Work
import CatalogBrowser.Proofs.Catalog.Answers

/-!
Runs of two panes: tasks that begin, replies to their calls in any order, tasks that are dropped,
new roots and collapses.

Beside such a run stands one tree for each pane, which gets that pane's share of the events.  The
calls of both panes are numbered in one row, and the trees take the numbers over.
-/

namespace CatalogBrowser

def Pane.name : Pane → String
  | .source => "source"
  | .target => "target"

inductive CommanderEvent where
  | load
  | start (pane : Pane) (operation : CatalogOperation)
  | reply (number : Nat) (reply : Except Error (List CatalogNode))
  | cancel (task : Nat)
  | replaceRoots (pane : Pane) (nodes : List CatalogNode)
  | collapse (pane : Pane) (id : String)

/-- A run with all that has been reported.  Tasks are named by the number of tasks before them. -/
structure CommanderRun where
  work : CatalogWork
  begun : Nat := 0
  results : List (Nat × Except Error (Option CatalogAnswer)) := []
  notes : List Notification := []

namespace CommanderRun

def opened : CommanderRun := { work := { commander := {} } }

def act (run : CommanderRun) : CommanderEvent → CatalogWork
  | .load => run.work.start run.begun [(.source, .load), (.target, .load)] []
  | .start pane operation => run.work.start run.begun [(pane, operation)] []
  | .reply number reply => (run.work.finish number reply).1
  | .cancel task => (run.work.cancel task).1
  | .replaceRoots pane nodes =>
    run.work.setSession pane ((run.work.session pane).replaceRoots nodes)
  | .collapse pane id => run.work.setSession pane ((run.work.session pane).collapse id).1

def begins (run : CommanderRun) : CommanderEvent → List CatalogTask
  | .load =>
    [{ name := run.begun, parts := [(run.work.fetches, none), (run.work.fetches + 1, none)] }]
  | .start _ _ => [{ name := run.begun, parts := [(run.work.fetches, none)] }]
  | .reply _ _ | .cancel _ | .replaceRoots _ _ | .collapse _ _ => []

def step (run : CommanderRun) (event : CommanderEvent) : CommanderRun where
  work := (run.act event).settle
  begun := run.begun + (run.begins event).length
  results := run.results ++ (run.act event).ended
  notes := run.notes ++ (run.act event).notes

def after (run : CommanderRun) (events : List CommanderEvent) : CommanderRun :=
  events.foldl step run

def of (events : List CommanderEvent) : CommanderRun := opened.after events

/-! The share of each pane -/

def loadNumber (run : CommanderRun) : Pane → Nat
  | .source => run.work.fetches
  | .target => run.work.fetches + 1

def due (work : CatalogWork) (pane : Pane) (task : CatalogTask) : List Nat :=
  (task.parts.map Prod.fst).filter fun number => work.parked.lookup number = some pane

/-- What an event is for the tree of a pane: its own operations and the replies to its own calls,
and nothing else. -/
def seen (run : CommanderRun) (pane : Pane) : CommanderEvent → List CatalogEvent
  | .load => [.start (run.loadNumber pane) .load]
  | .start other operation => if other = pane then [.start run.work.fetches operation] else []
  | .reply number reply =>
    if run.work.parked.lookup number = some pane then [.reply number reply] else []
  | .cancel name =>
    match run.work.tasks.find? fun task => task.name = name with
    | some task => (due run.work pane task).map .cancel
    | none => []
  | .replaceRoots other nodes => if other = pane then [.replaceRoots nodes] else []
  | .collapse other id => if other = pane then [.collapse id] else []

def seenOf (run : CommanderRun) (pane : Pane) : List CommanderEvent → List CatalogEvent
  | [] => []
  | event :: rest => run.seen pane event ++ (run.step event).seenOf pane rest

/-- A tree of its own that gets what a pane gets. -/
def alone (events : List CommanderEvent) (pane : Pane) : CatalogRun :=
  CatalogRun.of pane.name (opened.seenOf pane events)

theorem of_append (before later : List CommanderEvent) :
    of (before ++ later) = (of before).after later := List.foldl_append ..

end CommanderRun

/-! What the events do to the work -/

namespace CatalogTask

def hear (task : CatalogTask) (answers : List (Nat × Finished)) : CatalogTask :=
  { task with parts := task.parts.map fun (number, result) =>
      (number, result.or ((answers.lookup number).map Finished.result)) }

@[simp] theorem hear_nil (task : CatalogTask) : task.hear [] = task := by
  obtain ⟨name, parts⟩ := task
  simp [hear]

end CatalogTask

namespace CatalogWork

variable (work : CatalogWork)

@[simp] theorem session_setSession (pane other : Pane) (session : CatalogSession) :
    (work.setSession pane session).session other =
      if other = pane then session else work.session other :=
  Commander.pane_setPane ..

theorem record_eq (number : Nat) (finish : Finished) :
    work.record number finish =
      { work with
        notes := work.notes ++ finish.notes
        tasks := work.tasks.map fun task => task.hear [(number, finish)] } := by
  have place (part : Nat × Option (Except Error CatalogAnswer)) :
      (part.1, if part.1 = number && part.2.isNone then some finish.result else part.2) =
        (part.1, part.2.or (([(number, finish)].lookup part.1).map Finished.result)) := by
    obtain ⟨other, result⟩ := part
    by_cases same : other = number
    · subst same
      cases result <;> simp
    · cases result <;> simp [same, lookup_cons_of_ne]
  unfold record CatalogTask.hear
  simp only [place]

theorem start_of_finished (name : Nat) {pane : Pane} {operation : CatalogOperation}
    {next : CatalogSession} {finish : Finished}
    (begun : (work.session pane).start work.fetches operation = (next, .finished finish)) :
    work.start name [(pane, operation)] [] =
      { work.setSession pane next with
        notes := work.notes ++ finish.notes
        tasks := (work.tasks ++ [CatalogTask.mk name [(work.fetches, none)]]).map fun task =>
          task.hear [(work.fetches, finish)] } := by
  change (work.commander.pane pane).start work.fetches operation = _ at begun
  simp [start, List.range_succ, startPart, session, begun, record_eq, setSession]

theorem start_of_waiting (name : Nat) {pane : Pane} {operation : CatalogOperation}
    {next : CatalogSession} {call : CatalogCall}
    (begun : (work.session pane).start work.fetches operation = (next, .waiting call)) :
    work.start name [(pane, operation)] [] =
      { work.setSession pane next with
        fetches := work.fetches + 1
        parked := work.parked ++ [(work.fetches, pane)]
        tasks := work.tasks ++ [.mk name [(work.fetches, none)]]
        calls := work.calls ++ [(work.fetches, call)] } := by
  change (work.commander.pane pane).start work.fetches operation = _ at begun
  simp [start, List.range_succ, startPart, session, begun, setSession]

theorem start_both (name : Nat) :
    work.start name [(.source, .load), (.target, .load)] [] =
      { work with
        commander := {
          source := (work.session .source).wait work.fetches .roots
          target := (work.session .target).wait (work.fetches + 1) .roots }
        fetches := work.fetches + 2
        parked := work.parked ++ [(work.fetches, .source), (work.fetches + 1, .target)]
        tasks := work.tasks ++ [.mk name [(work.fetches, none), (work.fetches + 1, none)]]
        calls := work.calls ++ [(work.fetches, .catalogs), (work.fetches + 1, .catalogs)] } := by
  simp [start, List.range_succ, startPart, CatalogSession.start, setSession, session,
    Commander.setPane, Commander.pane]

theorem finish_of_missing {number : Nat} (missing : work.parked.lookup number = none)
    (reply : Except Error (List CatalogNode)) : (work.finish number reply).1 = work := by
  simp only [finish, missing]

theorem finish_of_parked {number : Nat} {pane : Pane}
    (parked : work.parked.lookup number = some pane) {reply : Except Error (List CatalogNode)}
    {session : CatalogSession} {answer : Option Finished}
    (ended : (work.session pane).finish number reply = (session, answer)) :
    (work.finish number reply).1 =
      { work.setSession pane session with
        parked := work.parked.filter fun entry => entry.1 ≠ number
        notes := work.notes ++ answer.toList.flatMap Finished.notes
        tasks := work.tasks.map fun task =>
          task.hear (answer.toList.map fun finish => (number, finish)) } := by
  simp only [finish, parked, ended]
  cases answer <;> simp [record_eq, setSession]

def dropPart (work : CatalogWork) (part : Nat × Option (Except Error CatalogAnswer)) :
    CatalogWork :=
  match work.parked.lookup part.1 with
  | some pane => work.setSession pane ((work.session pane).abandon part.1)
  | none => work

theorem foldl_dropPart (parts : List (Nat × Option (Except Error CatalogAnswer))) :
    ∃ commander, parts.foldl dropPart work = { work with commander } ∧
      ∀ pane, commander.pane pane =
        ((parts.map Prod.fst).filter fun number =>
          work.parked.lookup number = some pane).foldl CatalogSession.abandon
            (work.session pane) := by
  -- no call is taken out, so that each part is due where it was due at the beginning
  induction parts generalizing work with
  | nil => exact ⟨work.commander, rfl, fun _ => rfl⟩
  | cons part rest ih =>
      obtain ⟨number, answer⟩ := part
      obtain ⟨commander, dropped, sessions⟩ := ih (work.dropPart (number, answer))
      rw [List.foldl_cons, dropped]
      cases found : work.parked.lookup number with
      | none =>
          have unchanged : work.dropPart (number, answer) = work := by simp [dropPart, found]
          rw [unchanged] at sessions ⊢
          exact ⟨commander, rfl, by simpa [found] using sessions⟩
      | some owner =>
          have changed : work.dropPart (number, answer) =
              work.setSession owner ((work.session owner).abandon number) := by
            simp [dropPart, found]
          rw [changed] at sessions ⊢
          refine ⟨commander, rfl, fun pane => ?_⟩
          rw [sessions pane, session_setSession]
          change List.foldl _ _ (List.filter (fun number =>
            work.parked.lookup number = some pane) _) = _
          by_cases own : pane = owner
          · subst own
            simp [found]
          · have other : owner ≠ pane := Ne.symm own
            simp [found, own, other]

theorem cancel_of_missing {name : Nat}
    (missing : work.tasks.find? (fun task => task.name = name) = none) :
    (work.cancel name).1 = work := by
  simp only [cancel, missing]

theorem cancel_of_found {name : Nat} {task : CatalogTask}
    (found : work.tasks.find? (fun task => task.name = name) = some task) :
    ∃ commander, (work.cancel name).1 =
        { work with commander, tasks := work.tasks.filter fun other => other.name ≠ name } ∧
      ∀ pane, commander.pane pane =
        (CommanderRun.due work pane task).foldl CatalogSession.abandon (work.session pane) := by
  obtain ⟨commander, dropped, sessions⟩ := work.foldl_dropPart task.parts
  refine ⟨commander, ?_, sessions⟩
  have cancelled : (work.cancel name).1 =
      { task.parts.foldl dropPart work with
        tasks := work.tasks.filter fun other => other.name ≠ name } := by
    simp only [cancel, found]
    rfl
  rw [cancelled, dropped]

end CatalogWork

end CatalogBrowser
