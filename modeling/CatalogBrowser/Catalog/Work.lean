import CatalogBrowser.Catalog.Commander

/-!
The tasks that are under way on two panes, and the backend calls that they wait for.

Calls are numbered in the order in which they are made.  A task owns one operation, or the loading
of both panes, and ends when all that it waits for has been answered.  Dropping a task clears its
marks; an answer that comes later changes nothing.
-/

namespace CatalogBrowser

/-- A task with the numbers that its operations wait under and the answers that have come. -/
structure CatalogTask where
  name : Nat
  parts : List (Nat × Option (Except Error CatalogAnswer))

def CatalogTask.result? (task : CatalogTask) : Option (Except Error (Option CatalogAnswer)) :=
  match task.parts with
  | [(_, some result)] => some (result.map some)
  | [(_, some source), (_, some target)] =>
    some ((Commander.loadResult source target).map fun () => none)
  | _ => none

structure CatalogWork where
  commander : Commander
  fetches : Nat := 0
  parked : List (Nat × Pane) := []
  tasks : List CatalogTask := []
  calls : List (Nat × CatalogCall) := []
  notes : List Notification := []

namespace CatalogWork

def session (work : CatalogWork) (pane : Pane) : CatalogSession := work.commander.pane pane

def setSession (work : CatalogWork) (pane : Pane) (session : CatalogSession) : CatalogWork :=
  { work with commander := work.commander.setPane session pane }

def record (work : CatalogWork) (number : Nat) (finish : Finished) : CatalogWork :=
  { work with
    notes := work.notes ++ finish.notes
    tasks := work.tasks.map fun task => { task with
      parts := task.parts.map fun (part, result) =>
        (part, if part = number && result.isNone then some finish.result else result) } }

def startPart (work : CatalogWork) (pane : Pane) (operation : CatalogOperation) : CatalogWork :=
  let number := work.fetches
  let (session, started) := (work.session pane).start number operation
  let work := work.setSession pane session
  match started with
  | .finished finish => work.record number finish
  | .waiting call =>
    { work with
      fetches := number + 1
      parked := work.parked ++ [(number, pane)]
      calls := work.calls ++ [(number, call)] }

def finish (work : CatalogWork) (number : Nat) (reply : Except Error (List CatalogNode)) :
    CatalogWork × Bool :=
  match work.parked.lookup number with
  | none => (work, false)
  | some pane =>
    let (session, finish) := (work.session pane).finish number reply
    let work := { work.setSession pane session with
      parked := work.parked.filter fun entry => entry.1 ≠ number }
    ((finish.map (work.record number)).getD work, true)

def start (work : CatalogWork) (name : Nat) (parts : List (Pane × CatalogOperation))
    (replies : List (Except Error (List CatalogNode))) : CatalogWork :=
  let first := work.fetches
  let task : CatalogTask :=
    { name, parts := (List.range parts.length).map fun index => (first + index, none) }
  let work := parts.foldl (fun work (pane, operation) => work.startPart pane operation)
    { work with tasks := work.tasks ++ [task] }
  ((List.range (work.fetches - first)).zip replies).foldl
    (fun work (index, reply) => (work.finish (first + index) reply).1) work

/-- Drops a task, and says whether there was one.  Its calls may still be answered. -/
def cancel (work : CatalogWork) (name : Nat) : CatalogWork × Bool :=
  match work.tasks.find? fun task => task.name = name with
  | none => (work, false)
  | some task =>
    let abandon := fun (work : CatalogWork) (number, _) =>
      match work.parked.lookup number with
      | some pane => work.setSession pane ((work.session pane).abandon number)
      | none => work
    ({ task.parts.foldl abandon work with
      tasks := work.tasks.filter fun other => other.name ≠ name }, true)

def ended (work : CatalogWork) : List (Nat × Except Error (Option CatalogAnswer)) :=
  work.tasks.filterMap fun task => task.result?.map fun result => (task.name, result)

def settle (work : CatalogWork) : CatalogWork :=
  { work with
    tasks := work.tasks.filter fun task => task.result?.isNone
    calls := []
    notes := [] }

end CatalogWork

end CatalogBrowser
