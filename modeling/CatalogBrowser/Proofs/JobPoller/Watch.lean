import CatalogBrowser.JobPoller.Watch
import CatalogBrowser.Proofs.JobPoller.Run
import Mathlib.Data.List.Induction

/-!
A watch and the poller that it follows, in any interleaving.

Statuses may be published and the channel may be closed between any two moves of the watch.  What
carries the argument is where a terminal status can stand: it is the last one that is published, so
a watch that waits has not seen it, and a watch that was notified reads nothing older.
-/

namespace CatalogBrowser

namespace JobPoller

structure EndsWithOver (poller : JobPoller) : Prop where
  before : ∀ status ∈ poller.published.dropLast, status.isOver = false
  stopped : ∀ status ∈ poller.published, status.isOver = true → poller.hasStopped = true

theorem Tracks.endsWithOver {script : Nat → JobCall} {ended : Nat} {halted : Prop}
    {poller : JobPoller} (tracks : Tracks script ended halted poller) : poller.EndsWithOver where
  before := by
    intro status member
    cases terminal : status.isOver with
    | false => rfl
    | true =>
        obtain ⟨number, first, all⟩ := tracks.firstOver (List.dropLast_subset _ member) terminal
        rw [all, List.dropLast_concat] at member
        obtain ⟨earlier, less, answered⟩ := mem_received.mp member
        have last := JobCall.isLast_of_over answered terminal
        rw [first.before earlier less] at last
        cases last
  stopped := by
    intro status member terminal
    obtain ⟨number, less, answered⟩ := mem_received.mp (tracks.published ▸ member)
    exact tracks.stopped.mpr (.inr ⟨number, less, JobCall.isLast_of_over answered terminal⟩)

theorem exists_published_step (poller : JobPoller) (script : Nat → JobCall) :
    ∃ news, (poller.step script).published = poller.published ++ news := by
  unfold step
  split
  · exact ⟨[], by simp [startCall]⟩
  · next ends ending _ => exact ⟨_, by rw [poller.endCall_eq ends ⟨0, ending⟩]⟩
  · exact ⟨[], by simp⟩

end JobPoller

namespace Subscription

variable {subscription : Subscription} {published : List JobStatus} {closed : Bool}

theorem news?_of_unseen (unseen : subscription.seen < published.length) (closed : Bool) :
    ∃ status, subscription.news? published closed = some (.status status) := by
  have filled : published ≠ [] := List.ne_nil_of_length_pos (Nat.zero_lt_of_lt unseen)
  refine ⟨published.getLast filled, ?_⟩
  rw [news?, List.getLast?_eq_some_getLast filled]
  exact if_pos unseen

theorem unseen_of_news? {status : JobStatus}
    (news : subscription.news? published closed = some (.status status)) :
    subscription.seen < published.length := by
  unfold news? at news
  split at news
  · split at news
    · next unseen => exact unseen
    · split at news <;> cases news
  · split at news <;> cases news

theorem closed_of_news? (news : subscription.news? published closed = some .closed) :
    closed = true ∧ published.length ≤ subscription.seen := by
  unfold news? at news
  split at news
  · split at news
    · cases news
    · next seen =>
        split at news
        · next closed => exact ⟨closed, Nat.not_lt.mp seen⟩
        · cases news
  · next empty =>
      split at news
      · next closed =>
          rw [List.getLast?_eq_none_iff.mp empty]
          exact ⟨closed, Nat.zero_le _⟩
      · cases news

end Subscription

/-- What a watch has reported, by where it stands. -/
inductive Reports (poller : JobPoller) : JobWatch → Prop
  | waiting {subscription reported} : subscription.seen ≤ poller.published.length →
      reported.Sublist (poller.published.take subscription.seen) →
      (∀ status ∈ poller.published.take subscription.seen, status.isOver = false) →
      Reports poller { subscription, stage := .waiting, reported }
  | notified {subscription reported} : poller.published ≠ [] →
      reported.Sublist poller.published.dropLast →
      Reports poller { subscription, stage := .notified, reported }
  | done {subscription earlier status} : poller.published.getLast? = some status →
      status.isOver = true → earlier.Sublist poller.published.dropLast →
      Reports poller { subscription, stage := .ended (.ok ()), reported := earlier ++ [status] }
  | failed {subscription reported error} : poller.hasStopped = true →
      (∀ status ∈ poller.published, status.isOver = false) →
      reported.Sublist poller.published →
      Reports poller { subscription, stage := .ended (.error error), reported }

namespace Reports

variable {poller : JobPoller} {watch : JobWatch}

theorem poll (reports : Reports poller watch) (ends : poller.EndsWithOver)
    (script : Nat → JobCall) : Reports (poller.step script) watch := by
  obtain ⟨news, grown⟩ := poller.exists_published_step script
  cases reports with
  | @waiting subscription reported seen sublist notOver =>
      have same : (poller.published ++ news).take subscription.seen =
          poller.published.take subscription.seen := List.take_append_of_le_length seen
      rw [← grown] at same
      refine .waiting ?_ (same ▸ sublist) (same ▸ notOver)
      rw [grown, List.length_append]
      omega
  | notified published sublist =>
      refine .notified ?_ ?_
      · rw [grown]
        exact fun empty => published (List.append_eq_nil_iff.mp empty).1
      · cases news with
        | nil => rwa [grown, List.append_nil]
        | cons first rest =>
            rw [grown, List.dropLast_append_of_ne_nil (List.cons_ne_nil first rest)]
            exact (sublist.trans (List.dropLast_sublist _)).trans (List.sublist_append_left _ _)
  | done latest terminal sublist =>
      rw [poller.step_of_stopped (ends.stopped _ (List.mem_of_getLast? latest) terminal)]
      exact .done latest terminal sublist
  | failed stopped notOver sublist =>
      rw [poller.step_of_stopped stopped]
      exact .failed stopped notOver sublist

theorem notice (reports : Reports poller watch) {closed : Bool}
    (stopped : closed = true → poller.hasStopped = true) :
    Reports poller (watch.notice poller closed) := by
  cases reports with
  | waiting seen sublist notOver =>
      simp only [JobWatch.notice]
      split
      · next status news =>
          have unseen := Subscription.unseen_of_news? news
          refine .notified (List.ne_nil_of_length_pos (Nat.zero_lt_of_lt unseen)) ?_
          rw [List.dropLast_eq_take]
          exact sublist.trans (List.take_prefix_take_left (by omega)).sublist
      · next news =>
          obtain ⟨isClosed, all⟩ := Subscription.closed_of_news? news
          rw [List.take_of_length_le all] at sublist notOver
          exact .failed (stopped isClosed) notOver sublist
      · exact .waiting seen sublist notOver
  | notified published sublist => exact .notified published sublist
  | done latest terminal sublist => exact .done latest terminal sublist
  | failed stopped notOver sublist => exact .failed stopped notOver sublist

theorem read (reports : Reports poller watch) (ends : poller.EndsWithOver) :
    Reports poller (watch.read poller) := by
  cases reports with
  | waiting seen sublist notOver => exact .waiting seen sublist notOver
  | notified published sublist =>
      have parts := List.dropLast_concat_getLast published
      have latest : poller.lastStatus? = some (poller.published.getLast published) :=
        List.getLast?_eq_some_getLast published
      simp only [JobWatch.read, latest]
      cases terminal : (poller.published.getLast published).isOver with
      | true => exact .done latest terminal sublist
      | false =>
          have all : poller.published.take (Subscription.caughtUp poller).seen =
              poller.published := List.take_length
          refine .waiting (Nat.le_refl _) ?_ ?_
          · have longer := sublist.append (List.Sublist.refl [poller.published.getLast published])
            rw [parts] at longer
            rwa [all]
          · rw [all, ← parts]
            intro status member
            rcases List.mem_append.mp member with earlier | last
            · exact ends.before status earlier
            · exact List.mem_singleton.mp last ▸ terminal
  | done latest terminal sublist => exact .done latest terminal sublist
  | failed stopped notOver sublist => exact .failed stopped notOver sublist

theorem sublist (reports : Reports poller watch) : watch.reported.Sublist poller.published := by
  cases reports with
  | waiting _ sublist _ => exact sublist.trans (List.take_sublist _ _)
  | notified _ sublist => exact sublist.trans (List.dropLast_sublist _)
  | done latest _ sublist =>
      obtain ⟨before, parts⟩ := List.getLast?_eq_some_iff.mp latest
      rw [parts, List.dropLast_concat] at sublist
      rw [parts]
      exact sublist.append (List.Sublist.refl _)
  | failed _ _ sublist => exact sublist

theorem ended_ok_iff (reports : Reports poller watch) (ends : poller.EndsWithOver) :
    watch.ended = some (.ok ()) ↔
      ∃ earlier status, status.isOver = true ∧ watch.reported = earlier ++ [status] := by
  have none_of : (∀ status ∈ watch.reported, status.isOver = false) →
      ¬ ∃ earlier status, status.isOver = true ∧ watch.reported = earlier ++ [status] := by
    rintro notOver ⟨earlier, status, terminal, parts⟩
    have member := parts ▸ List.mem_append_right earlier (List.mem_singleton_self status)
    rw [notOver status member] at terminal
    cases terminal
  cases reports with
  | waiting _ sublist notOver =>
      exact iff_of_false nofun (none_of fun status member => notOver status (sublist.subset member))
  | notified _ sublist =>
      exact iff_of_false nofun
        (none_of fun status member => ends.before status (sublist.subset member))
  | done _ terminal _ => exact iff_of_true rfl ⟨_, _, terminal, rfl⟩
  | failed _ notOver sublist =>
      exact iff_of_false nofun (none_of fun status member => notOver status (sublist.subset member))

theorem of_ended_error (reports : Reports poller watch) {error : Error}
    (ended : watch.ended = some (.error error)) :
    poller.hasStopped = true ∧ ∀ status ∈ poller.published, status.isOver = false := by
  cases reports with
  | waiting _ _ _ | notified _ _ | done _ _ _ => cases ended
  | failed stopped notOver _ => exact ⟨stopped, notOver⟩

end Reports

namespace WatchedJob

section

variable (script : Nat → JobCall) (jobId : String) (interval : Nat)

theorem after_append (job : WatchedJob) (moves later : List WatchMove) :
    job.after script (moves ++ later) = (job.after script moves).after script later :=
  List.foldl_append ..

theorem poller_after (moves : List WatchMove) :
    ((launch jobId interval).after script moves).poller =
      (PollRun.of script jobId interval (List.replicate (moves.count .poll) .step)).poller := by
  induction moves using List.reverseRecOn with
  | nil => rfl
  | append_singleton moves move ih =>
      rw [after_append, List.count_append]
      cases move with
      | poll =>
          rw [← List.replicate_append_replicate, PollRun.of_append]
          exact congrArg (JobPoller.step · script) ih
      | close | notice | read => exact ih

theorem tracks_after (moves : List WatchMove) :
    ∃ ended, ((launch jobId interval).after script moves).poller.Tracks script ended
      (interval = 0) := by
  have tracks := PollRun.tracks_of script jobId interval (List.replicate (moves.count .poll) .step)
  have held : PollEvent.drop ∉ List.replicate (moves.count .poll) PollEvent.step :=
    fun member => by cases List.eq_of_mem_replicate member
  rw [or_iff_left held, ← poller_after] at tracks
  exact ⟨_, tracks⟩

theorem endsWithOver_after (moves : List WatchMove) :
    ((launch jobId interval).after script moves).poller.EndsWithOver :=
  (tracks_after script jobId interval moves).choose_spec.endsWithOver

theorem reports_after (moves : List WatchMove) :
    let job := (launch jobId interval).after script moves
    (job.closed = true → job.poller.hasStopped = true) ∧ Reports job.poller job.watch := by
  induction moves using List.reverseRecOn with
  | nil => exact ⟨nofun, .waiting (Nat.zero_le _) (List.Sublist.refl _) nofun⟩
  | append_singleton moves move ih =>
      obtain ⟨closed, reports⟩ := ih
      have ends := endsWithOver_after script jobId interval moves
      simp only [after_append]
      generalize (launch jobId interval).after script moves = job at *
      cases move with
      | poll =>
          refine ⟨fun isClosed => ?_, reports.poll ends script⟩
          have stopped := closed isClosed
          change (job.poller.step script).hasStopped = true
          rwa [JobPoller.step_of_stopped stopped]
      | close => exact ⟨id, reports⟩
      | notice => exact ⟨closed, reports.notice closed⟩
      | read => exact ⟨closed, reports.read ends⟩

end

structure IsOver (job : WatchedJob) : Prop where
  latest : ∃ status, job.poller.published.getLast? = some status ∧ status.isOver = true
  ends : job.poller.EndsWithOver
  reports : Reports job.poller job.watch

/-- The next status that a watch reads is the terminal one, or it has read it. -/
def IsNear (job : WatchedJob) : Prop :=
  job.watch.stage = .notified ∨ job.watch.ended = some (.ok ())

section

variable {job : WatchedJob}

theorem IsOver.stopped (isOver : job.IsOver) : job.poller.hasStopped = true := by
  obtain ⟨status, latest, terminal⟩ := isOver.latest
  exact isOver.ends.stopped status (List.mem_of_getLast? latest) terminal

theorem IsOver.step (isOver : job.IsOver) (script : Nat → JobCall) (move : WatchMove) :
    (job.step script move).IsOver := by
  have stopped := isOver.stopped
  cases move with
  | poll =>
      have same : job.step script .poll = job := by
        simp only [WatchedJob.step, JobPoller.step_of_stopped stopped]
      rwa [same]
  | close => exact ⟨isOver.latest, isOver.ends, isOver.reports⟩
  | notice => exact ⟨isOver.latest, isOver.ends, isOver.reports.notice fun _ => stopped⟩
  | read => exact ⟨isOver.latest, isOver.ends, isOver.reports.read isOver.ends⟩

theorem IsOver.after (isOver : job.IsOver) (script : Nat → JobCall) (moves : List WatchMove) :
    (job.after script moves).IsOver := by
  induction moves generalizing job with
  | nil => exact isOver
  | cons move rest ih => exact ih (isOver.step script move)

theorem IsOver.near_notice (isOver : job.IsOver) (script : Nat → JobCall) :
    (job.step script .notice).IsNear := by
  obtain ⟨poller, closed, watch⟩ := job
  obtain ⟨⟨status, latest, terminal⟩, ends, reports⟩ := isOver
  have member := List.mem_of_getLast? latest
  cases reports with
  | @waiting subscription reported seen sublist notOver =>
      have unseen : subscription.seen < poller.published.length := by
        refine Nat.not_le.mp fun all => ?_
        rw [List.take_of_length_le all] at notOver
        rw [notOver status member] at terminal
        cases terminal
      obtain ⟨news, found⟩ := Subscription.news?_of_unseen unseen closed
      exact .inl (by simp [WatchedJob.step, JobWatch.notice, found])
  | notified published sublist => exact .inl rfl
  | done latest terminal sublist => exact .inr rfl
  | failed stopped notOver sublist =>
      rw [notOver status member] at terminal
      cases terminal

theorem IsOver.ended_read (isOver : job.IsOver) (near : job.IsNear) (script : Nat → JobCall) :
    (job.step script .read).watch.ended = some (.ok ()) := by
  obtain ⟨poller, closed, subscription, stage, reported⟩ := job
  obtain ⟨⟨status, latest, terminal⟩, ends, reports⟩ := isOver
  rcases near with notified | ended
  · cases notified
    simp [WatchedJob.step, JobWatch.read, JobPoller.lastStatus?, latest, terminal, JobWatch.ended]
  · cases stage <;> cases ended
    rfl

theorem ended_step {result : Except Error Unit} (ended : job.watch.ended = some result)
    (script : Nat → JobCall) (move : WatchMove) :
    (job.step script move).watch.ended = some result := by
  obtain ⟨poller, closed, subscription, stage, reported⟩ := job
  cases stage <;> cases ended
  cases move <;> rfl

theorem ended_after {result : Except Error Unit} (ended : job.watch.ended = some result)
    (script : Nat → JobCall) (moves : List WatchMove) :
    (job.after script moves).watch.ended = some result := by
  induction moves generalizing job with
  | nil => exact ended
  | cons move rest ih => exact ih (ended_step ended script move)

theorem IsOver.near_after (isOver : job.IsOver) (near : job.IsNear) (script : Nat → JobCall)
    (moves : List WatchMove) : (job.after script moves).IsNear := by
  induction moves generalizing job with
  | nil => exact near
  | cons move rest ih =>
      refine ih (isOver.step script move) ?_
      cases move with
      | poll | close => exact near
      | notice => exact isOver.near_notice script
      | read => exact .inr (isOver.ended_read near script)

/-- Once polling has ended with a terminal status, a watch needs to look once more and to read. -/
theorem IsOver.ended_after (isOver : job.IsOver) (script : Nat → JobCall) {moves : List WatchMove}
    (fair : [.notice, .read].Sublist moves) :
    (job.after script moves).watch.ended = some (.ok ()) := by
  obtain ⟨first, second, rfl, noticed, later⟩ := List.cons_sublist_iff.mp fair
  obtain ⟨before, after, rfl⟩ := List.append_of_mem noticed
  obtain ⟨between, rest, rfl⟩ := List.append_of_mem (List.singleton_sublist.mp later)
  have looked := isOver.after script before
  have noticed := looked.step script .notice
  have near := noticed.near_after (looked.near_notice script) script (after ++ between)
  have reads := (noticed.after script (after ++ between)).ended_read near script
  simpa [WatchedJob.after] using WatchedJob.ended_after reads script rest

end

theorem isOver_after {script : Nat → JobCall} (jobId : String) {interval : Nat}
    (positive : 0 < interval) {number : Nat} {status : JobStatus}
    (first : IsFirstOver script number status) {moves : List WatchMove}
    (enough : 2 * (number + 1) ≤ moves.count .poll) :
    ((launch jobId interval).after script moves).IsOver := by
  obtain ⟨_, published⟩ := PollRun.stopped_of_firstOver jobId positive first enough
  rw [← poller_after] at published
  refine ⟨⟨status, ?_, first.terminal⟩, endsWithOver_after script jobId interval moves,
    (reports_after script jobId interval moves).2⟩
  rw [published, List.getLast?_concat]

/-- A watch reports published statuses in order, and ends well exactly when it has reported the
first terminal one. -/
theorem watch_reports_until_over (script : Nat → JobCall) (jobId : String) (interval : Nat)
    (moves : List WatchMove) :
    let job := (launch jobId interval).after script moves
    job.watch.reported.Sublist job.poller.published ∧
    (job.watch.ended = some (.ok ()) ↔
      ∃ number earlier status, IsFirstOver script number status ∧
        job.watch.reported = earlier ++ [status]) ∧
    (∀ error, job.watch.ended = some (.error error) →
      interval = 0 ∨ ∃ number, number < job.poller.calls.length ∧
        (script number).ending = .crash) ∧
    (0 < interval → ∀ number status, IsFirstOver script number status →
      2 * (number + 1) ≤ moves.count .poll → ∀ later, [.notice, .read].Sublist later →
        ((launch jobId interval).after script (moves ++ later)).watch.ended = some (.ok ())) := by
  intro job
  have reports : Reports job.poller job.watch := (reports_after script jobId interval moves).2
  have ends : job.poller.EndsWithOver := endsWithOver_after script jobId interval moves
  obtain ⟨ended, tracks⟩ := tracks_after script jobId interval moves
  refine ⟨reports.sublist, ?_, ?_, ?_⟩
  · rw [reports.ended_ok_iff ends]
    constructor
    · rintro ⟨earlier, status, terminal, parts⟩
      have member : status ∈ job.watch.reported := by simp [parts]
      obtain ⟨number, first, _⟩ := tracks.firstOver (reports.sublist.subset member) terminal
      exact ⟨number, earlier, status, first, parts⟩
    · rintro ⟨number, earlier, status, first, parts⟩
      exact ⟨earlier, status, first.terminal, parts⟩
  · intro error failed
    obtain ⟨stopped, notOver⟩ := reports.of_ended_error failed
    refine (tracks.stopped.mp stopped).imp_right ?_
    rintro ⟨number, earlier, last⟩
    refine ⟨number, Nat.lt_of_lt_of_le earlier tracks.ended_le, ?_⟩
    refine Classical.not_not.mp fun reply => ?_
    obtain ⟨status, answered, terminal⟩ := JobCall.exists_over_of_isLast last reply
    have member := mem_received.mpr ⟨number, earlier, answered⟩
    rw [notOver status (tracks.published ▸ member)] at terminal
    cases terminal
  · intro positive number status first enough later fair
    rw [after_append]
    exact (isOver_after jobId positive first enough).ended_after script fair

example :
    let script : Nat → JobCall
      | 0 => { ending := .reply (.ok { id := "job", state := .running }) }
      | _ => { ending := .reply (.ok { id := "job", state := .succeeded }) }
    let job := (launch "job" 1).after script [.poll, .poll, .notice, .poll, .poll, .close, .read]
    job.watch.reported = [{ id := "job", state := .succeeded }] ∧
      job.watch.ended = some (.ok ()) := ⟨rfl, rfl⟩

end WatchedJob

end CatalogBrowser
