import CatalogBrowser.Error
import CatalogBrowser.Job

/-!
Polling the status of a job until it is terminal.

Times are counted in milliseconds from the start.  The first call is made at once.  Every later
call is due one interval after the due time of the one before it; if that one is still running
then, the call is made as soon as it ends, and the next is due one interval after that moment.
A failed call changes nothing.
-/

namespace CatalogBrowser

inductive CallEnding where
  | reply (reply : Except Error JobStatus)
  | crash

structure JobCall where
  delay : Nat := 0
  ending : CallEnding

inductive PollActivity where
  | resting (since : Nat)
  | calling (ends : Nat) (ending : CallEnding)
  | stopped

structure JobPoller where
  jobId : String
  interval : Nat
  interval_pos : 0 < interval
  due : Nat := 0
  activity : PollActivity := .resting 0
  published : List JobStatus := []
  calls : List Nat := []

namespace JobPoller

/-- A call that is later than this shifts those after it. -/
def tolerance : Nat := 5

def launch (jobId : String) (interval : Nat) : JobPoller :=
  if positive : 0 < interval then { jobId, interval, interval_pos := positive }
  else { jobId, interval := 1, interval_pos := by decide, activity := .stopped }

def lastStatus? (poller : JobPoller) : Option JobStatus := poller.published.getLast?

def hasStopped (poller : JobPoller) : Bool :=
  match poller.activity with
  | .stopped => true
  | .resting _ | .calling .. => false

def abort (poller : JobPoller) : JobPoller := { poller with activity := .stopped }

def nextEvent? (poller : JobPoller) : Option Nat :=
  match poller.activity with
  | .resting since => some (max since poller.due)
  | .calling ends _ => some ends
  | .stopped => none

def dueAfter (poller : JobPoller) (now : Nat) : Nat :=
  if poller.due + tolerance < now then now + poller.interval else poller.due + poller.interval

def startCall (poller : JobPoller) (script : Nat → JobCall) (since : Nat) : JobPoller :=
  let now := max since poller.due
  let call := script poller.calls.length
  { poller with
    due := poller.dueAfter now
    activity := .calling (now + call.delay) call.ending
    calls := poller.calls ++ [now] }

def endCall (poller : JobPoller) (ends : Nat) : CallEnding → JobPoller
  | .crash => { poller with activity := .stopped }
  | .reply (.error _) => { poller with activity := .resting ends }
  | .reply (.ok status) =>
    { poller with
      published := poller.published ++ [status]
      activity := if status.isOver then .stopped else .resting ends }

def step (poller : JobPoller) (script : Nat → JobCall) : JobPoller :=
  match poller.activity with
  | .resting since => poller.startCall script since
  | .calling ends ending => poller.endCall ends ending
  | .stopped => poller

theorem due_lt_dueAfter (poller : JobPoller) {now : Nat} (late : poller.due ≤ now) :
    poller.due < poller.dueAfter now := by
  have positive := poller.interval_pos
  unfold dueAfter
  split <;> omega

def remaining (poller : JobPoller) (limit : Nat) : Nat :=
  2 * (limit + 1 - poller.due) + match poller.activity with
    | .calling .. => 1
    | .resting _ | .stopped => 0

theorem remaining_step_lt {poller : JobPoller} {script : Nat → JobCall} {limit time : Nat}
    (next : poller.nextEvent? = some time) (early : time ≤ limit) :
    (poller.step script).remaining limit < poller.remaining limit := by
  unfold nextEvent? at next
  split at next
  · next since resting =>
    simp only [Option.some.injEq] at next
    have later := poller.due_lt_dueAfter (Nat.le_max_right since poller.due)
    have bounded : poller.due ≤ time := next ▸ Nat.le_max_right since poller.due
    simp only [step, resting, startCall, remaining]
    omega
  · next ends ending calling =>
    simp only [step, calling, remaining]
    cases ending with
    | crash => simp [endCall]
    | reply reply =>
      cases reply with
      | error error => simp [endCall]
      | ok status => by_cases terminal : status.isOver <;> simp [endCall, terminal]
  · simp at next

def advance (script : Nat → JobCall) (limit : Nat) (poller : JobPoller) : JobPoller :=
  match _ : poller.nextEvent? with
  | none => poller
  | some time =>
    if _ : time ≤ limit then advance script limit (poller.step script) else poller
termination_by poller.remaining limit
decreasing_by exact remaining_step_lt ‹_› ‹_›

/-- Waits from `now` until `ready` has an answer, or up to the deadline. -/
def await (script : Nat → JobCall) (ready : JobPoller → Option α) (now deadline : Nat)
    (poller : JobPoller) : JobPoller × Nat × Option α :=
  let poller := poller.advance script now
  match ready poller with
  | some answer => (poller, now, some answer)
  | none =>
    match poller.nextEvent? with
    | none => (poller, deadline, none)
    | some time =>
      if now < time ∧ time ≤ deadline then poller.await script ready time deadline
      else (poller, deadline, none)
termination_by deadline - now

def stoppedError (poller : JobPoller) : Error :=
  .message ("polling of job `" ++ poller.jobId ++ "` stopped")

/-- The terminal status, or a complaint when there will never be one. -/
def terminal? (poller : JobPoller) : Option (Except Error JobStatus) :=
  match poller.lastStatus?.filter JobStatus.isOver with
  | some status => some (.ok status)
  | none => if poller.hasStopped then some (.error poller.stoppedError) else none

end JobPoller

end CatalogBrowser
