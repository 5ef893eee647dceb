import CatalogBrowser.Proofs.Catalog.Steps

/-!
Runs of a session: operations that start, replies to their calls in any order, cancellations, new
roots and collapses.

A run keeps notes beside the session, which the session never reads: how often the roots were
replaced, which calls were made, which of them have not ended, and which nodes got a listing.
-/

namespace CatalogBrowser

inductive CatalogEvent where
  | start (number : Nat) (operation : CatalogOperation)
  | reply (number : Nat) (reply : Except Error (List CatalogNode))
  | cancel (number : Nat)
  | replaceRoots (nodes : List CatalogNode)
  | collapse (id : String)

def CatalogEvent.GivesUp (number : Nat) : CatalogEvent → Prop
  | .reply other (.error _) | .cancel other => other = number
  | .reply _ (.ok _) | .start _ _ | .replaceRoots _ | .collapse _ => False

/-- A call for the children of a node that has not ended. -/
structure OpenFetch where
  number : Nat
  id : String
  call : CatalogCall
  /-- How often the roots had been replaced when the call was made. -/
  epoch : Nat

structure CatalogRun where
  session : CatalogSession
  replacements : Nat := 0
  calls : List (Nat × CatalogCall) := []
  fetches : List OpenFetch := []
  /-- The nodes that got a listing since the roots were replaced, one entry for each listing. -/
  listed : List String := []

namespace CatalogRun

def opened (name : String) : CatalogRun := { session := { tree := { name } } }

def noteStart (run : CatalogRun) (number : Nat) (operation : CatalogOperation) :
    CatalogSession × Started → CatalogRun
  | (session, .finished _) => { run with session }
  | (session, .waiting call) =>
    { run with
      session
      calls := run.calls ++ [(number, call)]
      fetches := run.fetches ++ (operation.target?.map fun id =>
        { number, id, call, epoch := run.replacements }).toList }

/-- What the expansion that waits under a number answers to a reply, also inside a toggle. -/
def outcome? (run : CatalogRun) (number : Nat) (reply : Except Error (List CatalogNode)) :
    Option (Except Error Expansion) :=
  match run.session.waiting.lookup number with
  | some (.children mark _) => some (run.session.tree.finishExpand mark reply).2.1
  | some .roots | none => none

def listedBy? (run : CatalogRun) (number : Nat) (reply : Except Error (List CatalogNode)) :
    Option String :=
  match run.session.waiting.lookup number, run.outcome? number reply with
  | some (.children mark _), some (.ok (.loaded _)) => some mark.id
  | _, _ => none

def bringsRoots (run : CatalogRun) (number : Nat) (reply : Except Error (List CatalogNode)) :
    Bool :=
  match run.session.waiting.lookup number, reply with
  | some .roots, .ok _ => true
  | _, _ => false

def close (run : CatalogRun) (number : Nat) (session : CatalogSession) : CatalogRun :=
  { run with session, fetches := run.fetches.filter fun fetch => fetch.number ≠ number }

def newRoots (run : CatalogRun) : CatalogRun :=
  { run with replacements := run.replacements + 1, listed := [] }

/-- What an event makes of a run.  A number that has had a call starts nothing again. -/
def step (run : CatalogRun) : CatalogEvent → CatalogRun
  | .start number operation =>
    if number ∈ run.calls.map Prod.fst then run
    else run.noteStart number operation (run.session.start number operation)
  | .reply number reply =>
    let next := run.close number (run.session.finish number reply).1
    if run.bringsRoots number reply then next.newRoots
    else { next with listed := run.listed ++ (run.listedBy? number reply).toList }
  | .cancel number => run.close number (run.session.abandon number)
  | .replaceRoots nodes => { run with session := run.session.replaceRoots nodes }.newRoots
  | .collapse id => { run with session := (run.session.collapse id).1 }

def after (run : CatalogRun) (events : List CatalogEvent) : CatalogRun := events.foldl step run

def of (name : String) (events : List CatalogEvent) : CatalogRun := (opened name).after events

/-- The nodes with a fetch that began since the roots were replaced and has not ended, one entry
for each fetch. -/
def currentIds (run : CatalogRun) : List String :=
  (run.fetches.filter fun fetch => fetch.epoch = run.replacements).map OpenFetch.id

theorem of_concat (name : String) (events : List CatalogEvent) (event : CatalogEvent) :
    of name (events ++ [event]) = (of name events).step event := List.foldl_append ..

theorem of_split (name : String) (before : List CatalogEvent) (event : CatalogEvent)
    (later : List CatalogEvent) :
    of name (before ++ event :: later) = ((of name before).step event).after later :=
  List.foldl_append ..

theorem replacements_le_step (run : CatalogRun) (event : CatalogEvent) :
    run.replacements ≤ (run.step event).replacements := by
  cases event with
  | start number operation =>
      simp only [step]
      split
      · exact Nat.le_refl _
      · unfold noteStart
        split <;> exact Nat.le_refl _
  | reply number reply =>
      simp only [step]
      split
      · exact Nat.le_succ _
      · exact Nat.le_refl _
  | cancel number => exact Nat.le_refl _
  | replaceRoots nodes => exact Nat.le_succ _
  | collapse id => exact Nat.le_refl _

theorem replacements_le_after (run : CatalogRun) (events : List CatalogEvent) :
    run.replacements ≤ (run.after events).replacements := by
  induction events generalizing run with
  | nil => exact Nat.le_refl _
  | cons event rest ih => exact Nat.le_trans (replacements_le_step run event) (ih (run.step event))

end CatalogRun

end CatalogBrowser
