import CatalogBrowser.JobPoller.Basic

/-!
Runs of a poller: its calls are made one after another until one of them is the last, and what it
has published is what the calls that ended have answered.
-/

namespace CatalogBrowser

namespace JobCall

def status? (call : JobCall) : Option JobStatus :=
  match call.ending with
  | .reply (.ok status) => some status
  | .reply (.error _) | .crash => none

/-- No call follows one that finds the job over or takes the poller down. -/
def isLast (call : JobCall) : Bool :=
  match call.ending with
  | .reply (.ok status) => status.isOver
  | .reply (.error _) => false
  | .crash => true

theorem isLast_of_over {call : JobCall} {status : JobStatus} (answered : call.status? = some status)
    (terminal : status.isOver = true) : call.isLast = true := by
  unfold status? at answered
  unfold isLast
  split at answered
  · next found ending =>
      cases answered
      simpa using terminal
  · cases answered
  · cases answered

theorem exists_over_of_isLast {call : JobCall} (last : call.isLast = true)
    (reply : call.ending ≠ .crash) :
    ∃ status, call.status? = some status ∧ status.isOver = true := by
  unfold isLast at last
  unfold status?
  split at last
  · next status ending => exact ⟨status, by simp, last⟩
  · cases last
  · next ending => exact absurd ending reply

end JobCall

/-- The first terminal status of a script, and the number of the call that answers with it. -/
structure IsFirstOver (script : Nat → JobCall) (number : Nat) (status : JobStatus) : Prop where
  answered : (script number).status? = some status
  terminal : status.isOver = true
  before : ∀ earlier, earlier < number → (script earlier).isLast = false

def received (script : Nat → JobCall) (count : Nat) : List JobStatus :=
  (List.range count).filterMap fun number => (script number).status?

theorem received_succ (script : Nat → JobCall) (count : Nat) :
    received script (count + 1) = received script count ++ (script count).status?.toList := by
  rw [received, List.range_succ, List.filterMap_append, ← received]
  cases answered : (script count).status? with
  | none => simp [answered]
  | some status => simp [answered]

theorem mem_received {script : Nat → JobCall} {count : Nat} {status : JobStatus} :
    status ∈ received script count ↔
      ∃ number, number < count ∧ (script number).status? = some status := by
  simp [received]

namespace JobPoller

/-- What a poller has done when so many of its calls have ended.  It is halted when something
other than its calls has stopped it. -/
structure Tracks (script : Nat → JobCall) (ended : Nat) (halted : Prop) (poller : JobPoller) :
    Prop where
  published : poller.published = received script ended
  ended_le : ended ≤ poller.calls.length
  calls_le : poller.calls.length ≤ ended + 1
  inTurn : ∀ number start next, poller.calls[number]? = some start →
    poller.calls[number + 1]? = some next → start + (script number).delay ≤ next
  stopped : poller.hasStopped = true ↔
    halted ∨ ∃ number, number < ended ∧ (script number).isLast = true
  last : ∀ number, number < ended → (script number).isLast = true →
    poller.calls.length = number + 1
  resting : ∀ since, poller.activity = .resting since → poller.calls.length = ended ∧
    ∀ number start, poller.calls[number]? = some start → number + 1 = ended →
      start + (script number).delay ≤ since
  calling : ∀ ends ending, poller.activity = .calling ends ending →
    ending = (script ended).ending ∧
      ∃ start, poller.calls[ended]? = some start ∧ ends = start + (script ended).delay

def ending (poller : JobPoller) : Nat :=
  match poller.activity with
  | .calling .. => 1
  | .resting _ | .stopped => 0

theorem hasStopped_iff (poller : JobPoller) :
    poller.hasStopped = true ↔ poller.activity = .stopped := by
  unfold hasStopped
  cases poller.activity <;> simp

theorem step_of_stopped {poller : JobPoller} (stopped : poller.hasStopped = true)
    (script : Nat → JobCall) : poller.step script = poller := by
  rw [hasStopped_iff] at stopped
  rw [step, stopped]

/-- The end of a call publishes its status, and stops the poller if the call is the last. -/
theorem endCall_eq (poller : JobPoller) (ends : Nat) (call : JobCall) :
    poller.endCall ends call.ending =
      { poller with
        published := poller.published ++ call.status?.toList
        activity := if call.isLast then .stopped else .resting ends } := by
  obtain ⟨delay, ending⟩ := call
  cases ending with
  | crash => simp [endCall, JobCall.status?, JobCall.isLast]
  | reply reply =>
      cases reply with
      | error error => simp [endCall, JobCall.status?, JobCall.isLast]
      | ok status =>
          simp only [endCall, JobCall.status?, JobCall.isLast, Option.toList_some]
          rfl

theorem tracks_launch (script : Nat → JobCall) (jobId : String) (interval : Nat) :
    Tracks script 0 (interval = 0) (launch jobId interval) := by
  unfold launch
  split
  · next positive =>
      refine ⟨rfl, by simp, by simp, by simp, ?_, by simp, by simp, by simp⟩
      simpa [hasStopped] using Nat.ne_of_gt positive
  · next zero =>
      refine ⟨rfl, by simp, by simp, by simp, ?_, by simp, by simp, by simp⟩
      simpa [hasStopped] using zero

section

variable {script : Nat → JobCall} {ended : Nat} {halted : Prop} {poller : JobPoller}

theorem Tracks.calls_of_calling (tracks : Tracks script ended halted poller) {ends : Nat}
    {ending : CallEnding} (calling : poller.activity = .calling ends ending) :
    poller.calls.length = ended + 1 := by
  obtain ⟨_, start, made, _⟩ := tracks.calling ends ending calling
  have bound := (List.getElem?_eq_some_iff.mp made).1
  have atMost := tracks.calls_le
  omega

theorem Tracks.running (tracks : Tracks script ended halted poller)
    (running : poller.hasStopped = false) :
    ¬ halted ∧ ∀ number, number < ended → (script number).isLast = false := by
  have goesOn : ¬ (halted ∨ ∃ number, number < ended ∧ (script number).isLast = true) := by
    rw [← tracks.stopped, running]
    exact Bool.false_ne_true
  refine ⟨fun halt => goesOn (.inl halt), fun number earlier => ?_⟩
  cases last : (script number).isLast with
  | false => rfl
  | true => exact absurd (.inr ⟨number, earlier, last⟩) goesOn

theorem Tracks.startCall (tracks : Tracks script ended halted poller) {since : Nat}
    (resting : poller.activity = .resting since) :
    Tracks script ended halted (poller.startCall script since) := by
  have running : poller.hasStopped = false := by simp [hasStopped, resting]
  obtain ⟨made, rested⟩ := tracks.resting since resting
  obtain ⟨notHalted, notLast⟩ := tracks.running running
  have callsNext : (poller.startCall script since).calls =
      poller.calls ++ [max since poller.due] := rfl
  have lengthNext : (poller.startCall script since).calls.length = ended + 1 := by
    rw [callsNext, List.length_append, made, List.length_singleton]
  exact {
    published := tracks.published
    ended_le := by omega
    calls_le := Nat.le_of_eq lengthNext
    inTurn := by
      intro number start next first second
      have bound := (List.getElem?_eq_some_iff.mp second).1
      rw [callsNext] at first second
      rw [List.getElem?_append_left (by omega)] at first
      by_cases newest : number + 1 = ended
      · rw [newest, ← made, List.getElem?_concat_length, Option.some.injEq] at second
        have later := rested number start first newest
        omega
      · rw [List.getElem?_append_left (by omega)] at second
        exact tracks.inTurn number start next first second
    stopped := by
      refine iff_of_false nofun ?_
      rintro (halt | ⟨number, earlier, last⟩)
      · exact notHalted halt
      · rw [notLast number earlier] at last
        cases last
    last := by
      intro number earlier last
      rw [notLast number earlier] at last
      cases last
    resting := nofun
    calling := by
      intro ends ending calling
      simp only [JobPoller.startCall, PollActivity.calling.injEq] at calling
      obtain ⟨rfl, rfl⟩ := calling
      rw [made, callsNext]
      refine ⟨rfl, max since poller.due, ?_, rfl⟩
      rw [← made, List.getElem?_concat_length] }

theorem Tracks.endCall (tracks : Tracks script ended halted poller) {ends : Nat}
    {ending : CallEnding} (calling : poller.activity = .calling ends ending) :
    Tracks script (ended + 1) halted (poller.endCall ends ending) := by
  have running : poller.hasStopped = false := by simp [hasStopped, calling]
  have made := tracks.calls_of_calling calling
  obtain ⟨rfl, start, started, rfl⟩ := tracks.calling ends ending calling
  obtain ⟨notHalted, notLast⟩ := tracks.running running
  have newest : ∀ number, number < ended + 1 → (script number).isLast = true → number = ended := by
    intro number earlier last
    rcases Nat.lt_succ_iff_lt_or_eq.mp earlier with before | same
    · rw [notLast number before] at last
      cases last
    · exact same
  rw [endCall_eq]
  exact {
    published := by rw [received_succ, tracks.published]
    ended_le := Nat.le_of_eq made.symm
    calls_le := Nat.le_succ_of_le (Nat.le_of_eq made)
    inTurn := tracks.inTurn
    stopped := by
      rw [hasStopped_iff]
      constructor
      · intro stopped
        by_cases last : (script ended).isLast = true
        · exact .inr ⟨ended, Nat.lt_succ_self ended, last⟩
        · simp [last] at stopped
      · rintro (halt | ⟨number, earlier, last⟩)
        · exact absurd halt notHalted
        · obtain rfl := newest number earlier last
          simp [last]
    last := by
      intro number earlier last
      rw [newest number earlier last]
      exact made
    resting := by
      intro since resting
      by_cases last : (script ended).isLast = true
      · simp [last] at resting
      · simp only [last, Bool.false_eq_true, if_false, PollActivity.resting.injEq] at resting
        subst resting
        refine ⟨made, ?_⟩
        intro number other first same
        obtain rfl : number = ended := Nat.succ.inj same
        rw [started, Option.some.injEq] at first
        exact Nat.le_of_eq (congrArg (· + (script number).delay) first.symm)
    calling := by
      intro ends ending other
      by_cases last : (script ended).isLast = true
      · simp [last] at other
      · simp [last] at other }

theorem Tracks.step (tracks : Tracks script ended halted poller) :
    Tracks script (ended + poller.ending) halted (poller.step script) := by
  cases activity : poller.activity with
  | resting since =>
      simp only [JobPoller.step, JobPoller.ending, activity, Nat.add_zero]
      exact tracks.startCall activity
  | calling ends ending =>
      simp only [JobPoller.step, JobPoller.ending, activity]
      exact tracks.endCall activity
  | stopped =>
      simp only [JobPoller.step, JobPoller.ending, activity, Nat.add_zero]
      exact tracks

theorem Tracks.abort (tracks : Tracks script ended halted poller) :
    Tracks script ended True poller.abort where
  published := tracks.published
  ended_le := tracks.ended_le
  calls_le := tracks.calls_le
  inTurn := tracks.inTurn
  stopped := by simp [hasStopped, JobPoller.abort]
  last := tracks.last
  resting := by simp [JobPoller.abort]
  calling := by simp [JobPoller.abort]

theorem Tracks.ended_of_last (tracks : Tracks script ended halted poller) {number : Nat}
    (earlier : number < ended) (last : (script number).isLast = true) : ended = number + 1 := by
  have made := tracks.last number earlier last
  have atMost := tracks.ended_le
  omega

theorem Tracks.calls_le_of_over (tracks : Tracks script ended halted poller) {number : Nat}
    {status : JobStatus} (answered : (script number).status? = some status)
    (terminal : status.isOver = true) : poller.calls.length ≤ number + 1 := by
  by_cases earlier : number < ended
  · exact Nat.le_of_eq (tracks.last number earlier (JobCall.isLast_of_over answered terminal))
  · have atMost := tracks.calls_le
    omega

theorem Tracks.stopped_iff_over (tracks : Tracks script ended halted poller)
    (replies : ∀ number, number < ended → (script number).ending ≠ .crash) :
    poller.hasStopped = true ↔
      halted ∨ ∃ status ∈ received script ended, status.isOver = true := by
  rw [tracks.stopped]
  refine or_congr_right ⟨?_, ?_⟩
  · rintro ⟨number, earlier, last⟩
    obtain ⟨status, answered, terminal⟩ :=
      JobCall.exists_over_of_isLast last (replies number earlier)
    exact ⟨status, mem_received.mpr ⟨number, earlier, answered⟩, terminal⟩
  · rintro ⟨status, member, terminal⟩
    obtain ⟨number, earlier, answered⟩ := mem_received.mp member
    exact ⟨number, earlier, JobCall.isLast_of_over answered terminal⟩

theorem Tracks.firstOver (tracks : Tracks script ended halted poller) {status : JobStatus}
    (member : status ∈ poller.published) (terminal : status.isOver = true) :
    ∃ number, IsFirstOver script number status ∧
      poller.published = received script number ++ [status] := by
  rw [tracks.published] at member
  obtain ⟨number, earlier, answered⟩ := mem_received.mp member
  have last := JobCall.isLast_of_over answered terminal
  have newest := tracks.ended_of_last earlier last
  refine ⟨number, ⟨answered, terminal, fun before smaller => ?_⟩, ?_⟩
  · cases lastBefore : (script before).isLast with
    | false => rfl
    | true =>
        have same := tracks.ended_of_last (Nat.lt_trans smaller earlier) lastBefore
        omega
  · rw [tracks.published, newest, received_succ, answered]
    rfl

end

end JobPoller

theorem IsFirstOver.unique {script : Nat → JobCall} {number other : Nat}
    {status otherStatus : JobStatus} (first : IsFirstOver script number status)
    (second : IsFirstOver script other otherStatus) : number = other ∧ status = otherStatus := by
  have same : number = other := by
    rcases Nat.lt_trichotomy number other with less | same | greater
    · have last := JobCall.isLast_of_over first.answered first.terminal
      rw [second.before number less] at last
      cases last
    · exact same
    · have last := JobCall.isLast_of_over second.answered second.terminal
      rw [first.before other greater] at last
      cases last
  subst same
  exact ⟨rfl, Option.some.inj (first.answered.symm.trans second.answered)⟩

inductive PollEvent where
  | step
  | drop
  deriving Repr, DecidableEq

structure PollRun where
  poller : JobPoller
  ended : Nat := 0

namespace PollRun

def step (script : Nat → JobCall) (run : PollRun) : PollEvent → PollRun
  | .step => { poller := run.poller.step script, ended := run.ended + run.poller.ending }
  | .drop => { run with poller := run.poller.abort }

def after (script : Nat → JobCall) (run : PollRun) (events : List PollEvent) : PollRun :=
  events.foldl (step script) run

def of (script : Nat → JobCall) (jobId : String) (interval : Nat) (events : List PollEvent) :
    PollRun :=
  after script { poller := .launch jobId interval } events

section

variable {script : Nat → JobCall} {run : PollRun}

theorem of_append (script : Nat → JobCall) (jobId : String) (interval : Nat)
    (before later : List PollEvent) :
    of script jobId interval (before ++ later) =
      (of script jobId interval before).after script later := List.foldl_append ..

theorem tracks_after {halted : Prop} (tracks : run.poller.Tracks script run.ended halted)
    (events : List PollEvent) :
    (run.after script events).poller.Tracks script (run.after script events).ended
      (halted ∨ .drop ∈ events) := by
  induction events generalizing run halted with
  | nil => simpa [after] using tracks
  | cons event rest ih =>
      cases event with
      | step =>
          have next : (run.step script .step).poller.Tracks script
              (run.step script .step).ended halted := tracks.step
          simpa [after] using ih next
      | drop =>
          have next : (run.step script .drop).poller.Tracks script
              (run.step script .drop).ended True := tracks.abort
          simpa [after] using ih next

theorem tracks_of (script : Nat → JobCall) (jobId : String) (interval : Nat)
    (events : List PollEvent) :
    (of script jobId interval events).poller.Tracks script (of script jobId interval events).ended
      (interval = 0 ∨ .drop ∈ events) :=
  tracks_after (JobPoller.tracks_launch script jobId interval) events

theorem step_of_stopped (stopped : run.poller.hasStopped = true) (event : PollEvent) :
    run.step script event = run := by
  have activity := run.poller.hasStopped_iff.mp stopped
  cases event with
  | step =>
      simp only [step, JobPoller.step_of_stopped stopped, JobPoller.ending, activity, Nat.add_zero]
  | drop =>
      simp only [step, JobPoller.abort, ← activity]

theorem after_of_stopped (stopped : run.poller.hasStopped = true) (events : List PollEvent) :
    run.after script events = run := by
  induction events with
  | nil => rfl
  | cons event rest ih =>
      change (run.step script event).after script rest = run
      rw [step_of_stopped stopped, ih]

theorem after_two_steps {halted : Prop} (tracks : run.poller.Tracks script run.ended halted)
    {since : Nat} (resting : run.poller.activity = .resting since) :
    (run.after script (List.replicate 2 .step)).ended = run.ended + 1 ∧
      ∃ ends, (run.after script (List.replicate 2 .step)).poller.activity =
        if (script run.ended).isLast then .stopped else .resting ends := by
  obtain ⟨made, _⟩ := tracks.resting since resting
  refine ⟨?_, max since run.poller.due + (script run.ended).delay, ?_⟩
  · simp [after, step, JobPoller.step, JobPoller.ending, resting, JobPoller.startCall]
  · simp [after, step, JobPoller.step, resting, JobPoller.startCall, JobPoller.endCall_eq, made]

section

variable (jobId : String) {interval : Nat} (positive : 0 < interval)

include positive

theorem exists_resting {count : Nat}
    (goesOn : ∀ number, number < count → (script number).isLast = false) :
    (of script jobId interval (List.replicate (2 * count) .step)).ended = count ∧
      ∃ since, (of script jobId interval (List.replicate (2 * count) .step)).poller.activity =
        .resting since := by
  induction count with
  | zero =>
      refine ⟨rfl, 0, ?_⟩
      simp [of, after, JobPoller.launch, positive]
  | succ count ih =>
      obtain ⟨ended, since, resting⟩ := ih fun number less => goesOn number (Nat.lt_succ_of_lt less)
      have tracks := tracks_of script jobId interval (List.replicate (2 * count) .step)
      obtain ⟨endedNext, ends, activity⟩ := after_two_steps tracks resting
      rw [Nat.mul_succ, ← List.replicate_append_replicate, of_append]
      rw [ended] at endedNext activity
      rw [goesOn count (Nat.lt_succ_self count)] at activity
      exact ⟨endedNext, ends, activity⟩

theorem stopped_of_firstOver {number : Nat} {status : JobStatus}
    (first : IsFirstOver script number status) {count : Nat} (enough : 2 * (number + 1) ≤ count) :
    let poller := (of script jobId interval (List.replicate count .step)).poller
    poller.hasStopped = true ∧ poller.published = received script number ++ [status] := by
  obtain ⟨more, rfl⟩ := Nat.exists_eq_add_of_le enough
  have last := JobCall.isLast_of_over first.answered first.terminal
  obtain ⟨ended, since, resting⟩ := exists_resting jobId positive first.before
  have tracks := tracks_of script jobId interval (List.replicate (2 * number) .step)
  obtain ⟨endedNext, ends, activity⟩ := after_two_steps tracks resting
  have tracksNext := tracks_of script jobId interval (List.replicate (2 * (number + 1)) .step)
  rw [ended, last, if_pos rfl] at activity
  rw [ended] at endedNext
  rw [← of_append, List.replicate_append_replicate, ← Nat.mul_succ] at activity endedNext
  have stopped : (of script jobId interval
      (List.replicate (2 * (number + 1)) .step)).poller.hasStopped = true :=
    (JobPoller.hasStopped_iff _).mpr activity
  have published := tracksNext.published
  rw [endedNext, received_succ, first.answered, Option.toList_some] at published
  rw [← List.replicate_append_replicate, of_append, after_of_stopped stopped]
  exact ⟨stopped, published⟩

end

end

end PollRun

end CatalogBrowser
