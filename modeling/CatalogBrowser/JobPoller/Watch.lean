import CatalogBrowser.JobPoller.Basic

/-!
Following a poller: a subscription knows which of the published statuses it has seen, and a watch
reports what is new until the job is done.

A subscriber that was away for a while sees the latest status only.  A poller and the watch that
follows it go on independently of each other: between the moment at which the watch learns that
something is new and the moment at which it reads the latest status, the poller may publish more,
and the channel between them is closed only some time after the poller has stopped.
-/

namespace CatalogBrowser

structure Subscription where
  seen : Nat := 0
  deriving Repr, DecidableEq

inductive Change where
  | status (status : JobStatus)
  | closed

namespace Subscription

/-- What is new on a channel.  A status that was not seen yet goes before the end. -/
def news? (subscription : Subscription) (published : List JobStatus) (closed : Bool) :
    Option Change :=
  match published.getLast? with
  | some status =>
    if subscription.seen < published.length then some (.status status)
    else if closed then some .closed
    else none
  | none => if closed then some .closed else none

def change? (subscription : Subscription) (poller : JobPoller) : Option Change :=
  subscription.news? poller.published poller.hasStopped

def caughtUp (poller : JobPoller) : Subscription := ⟨poller.published.length⟩

end Subscription

inductive WatchStage where
  | waiting
  | notified
  | ended (result : Except Error Unit)

structure JobWatch where
  subscription : Subscription := {}
  stage : WatchStage := .waiting
  reported : List JobStatus := []

namespace JobWatch

def ended (watch : JobWatch) : Option (Except Error Unit) :=
  match watch.stage with
  | .ended result => some result
  | .waiting | .notified => none

/-- Learns that something is new, which counts as seen from then on, or that nothing will come
any more. -/
def notice (watch : JobWatch) (poller : JobPoller) (closed : Bool) : JobWatch :=
  match watch.stage with
  | .waiting =>
    match watch.subscription.news? poller.published closed with
    | some (.status _) => { watch with subscription := .caughtUp poller, stage := .notified }
    | some .closed => { watch with stage := .ended (.error poller.stoppedError) }
    | none => watch
  | .notified | .ended _ => watch

/-- Reports the latest status, whichever that is by now. -/
def read (watch : JobWatch) (poller : JobPoller) : JobWatch :=
  match watch.stage, poller.lastStatus? with
  | .notified, some status =>
    { subscription := .caughtUp poller
      stage := if status.isOver then .ended (.ok ()) else .waiting
      reported := watch.reported ++ [status] }
  | .notified, none => { watch with subscription := .caughtUp poller, stage := .waiting }
  | .waiting, _ | .ended _, _ => watch

end JobWatch

structure WatchedJob where
  poller : JobPoller
  closed : Bool := false
  watch : JobWatch := {}

inductive WatchMove where
  | poll
  | close
  | notice
  | read
  deriving Repr, DecidableEq

namespace WatchedJob

def step (script : Nat → JobCall) (job : WatchedJob) : WatchMove → WatchedJob
  | .poll => { job with poller := job.poller.step script }
  | .close => { job with closed := job.poller.hasStopped }
  | .notice => { job with watch := job.watch.notice job.poller job.closed }
  | .read => { job with watch := job.watch.read job.poller }

def after (script : Nat → JobCall) (job : WatchedJob) (moves : List WatchMove) : WatchedJob :=
  moves.foldl (step script) job

def launch (jobId : String) (interval : Nat) : WatchedJob := { poller := .launch jobId interval }

/-- Both in turn, so that the watch misses nothing. -/
def inTurn (rounds : Nat) : List WatchMove :=
  (List.replicate rounds [.poll, .close, .notice, .read]).flatten

end WatchedJob

end CatalogBrowser
