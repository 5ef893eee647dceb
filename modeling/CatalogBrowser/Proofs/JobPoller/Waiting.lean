import CatalogBrowser.Proofs.JobPoller.Run
import Mathlib.Logic.Function.Iterate

/-!
Waiting for a poller: letting time pass is taking steps, so whoever waits long enough gets the first
terminal status, and whoever gets an answer gets that status.
-/

namespace CatalogBrowser

namespace JobPoller

def steps (script : Nat → JobCall) (poller : JobPoller) (count : Nat) : JobPoller :=
  (fun poller => poller.step script)^[count] poller

section

variable {script : Nat → JobCall} {poller : JobPoller}

theorem steps_succ (count : Nat) :
    poller.steps script (count + 1) = (poller.step script).steps script count := rfl

theorem steps_add (first second : Nat) :
    poller.steps script (first + second) = (poller.steps script first).steps script second := by
  rw [Nat.add_comm]
  exact Function.iterate_add_apply _ second first poller

theorem nextEvent?_eq_none : poller.nextEvent? = none ↔ poller.hasStopped = true := by
  rw [hasStopped_iff, nextEvent?]
  cases poller.activity <;> simp

theorem steps_of_stopped (stopped : poller.hasStopped = true) (count : Nat) :
    poller.steps script count = poller :=
  Function.iterate_fixed (step_of_stopped stopped script) count

theorem advance_of_none (none : poller.nextEvent? = none) (limit : Nat) :
    poller.advance script limit = poller := by
  rw [advance]
  split
  · rfl
  · next time next => cases none.symm.trans next

theorem advance_of_late {time limit : Nat} (next : poller.nextEvent? = some time)
    (late : limit < time) : poller.advance script limit = poller := by
  rw [advance]
  split
  · rfl
  · next other same =>
      obtain rfl := Option.some.inj (next.symm.trans same)
      rw [dif_neg (Nat.not_le.mpr late)]

theorem advance_of_early {time limit : Nat} (next : poller.nextEvent? = some time)
    (early : time ≤ limit) :
    poller.advance script limit = (poller.step script).advance script limit := by
  rw [advance]
  split
  · next missing => cases next.symm.trans missing
  · next other same =>
      obtain rfl := Option.some.inj (next.symm.trans same)
      rw [dif_pos early]

/-- Whatever is to happen up to a time follows the steps that `advance` takes. -/
theorem advance_induction (script : Nat → JobCall) {motive : JobPoller → Prop} (limit : Nat)
    (none : ∀ poller : JobPoller, poller.nextEvent? = none → motive poller)
    (late : ∀ (poller : JobPoller) time, poller.nextEvent? = some time → limit < time →
      motive poller)
    (early : ∀ (poller : JobPoller) time, poller.nextEvent? = some time → time ≤ limit →
      motive (poller.step script) → motive poller) (poller : JobPoller) : motive poller := by
  induction bound : poller.remaining limit using Nat.strongRecOn generalizing poller with
  | ind bound ih =>
      subst bound
      cases next : poller.nextEvent? with
      | none => exact none poller next
      | some time =>
          by_cases inTime : time ≤ limit
          · exact early poller time next inTime (ih _ (remaining_step_lt next inTime) _ rfl)
          · exact late poller time next (Nat.not_le.mp inTime)

theorem exists_steps_advance (script : Nat → JobCall) (limit : Nat) (poller : JobPoller) :
    ∃ count, poller.advance script limit = poller.steps script count := by
  induction poller using advance_induction script limit with
  | none poller next => exact ⟨0, advance_of_none next limit⟩
  | late poller time next late => exact ⟨0, advance_of_late next late⟩
  | early poller time next early ih =>
      obtain ⟨count, same⟩ := ih
      exact ⟨count + 1, by rw [advance_of_early next early, same, steps_succ]⟩

theorem advance_advance {now limit : Nat} (early : now ≤ limit) :
    (poller.advance script now).advance script limit = poller.advance script limit := by
  induction poller using advance_induction script now with
  | none poller next => rw [advance_of_none next now]
  | late poller time next late => rw [advance_of_late next late]
  | early poller time next inTime ih =>
      rw [advance_of_early next inTime, ih, advance_of_early next (Nat.le_trans inTime early)]

theorem late_of_advance {limit time : Nat}
    (next : (poller.advance script limit).nextEvent? = some time) : limit < time := by
  induction poller using advance_induction script limit with
  | none poller missing =>
      rw [advance_of_none missing, missing] at next
      cases next
  | late poller other found late =>
      rw [advance_of_late found late, found, Option.some.injEq] at next
      exact next ▸ late
  | early poller other found early ih =>
      rw [advance_of_early found early] at next
      exact ih next

/-- However many steps a poller is to take, there is a time by which it has taken them. -/
theorem exists_advance_steps (script : Nat → JobCall) (count : Nat) (poller : JobPoller) :
    ∃ enough, ∀ limit, enough ≤ limit →
      ∃ more, poller.advance script limit = poller.steps script (count + more) := by
  induction count generalizing poller with
  | zero =>
      refine ⟨0, fun limit _ => ?_⟩
      obtain ⟨more, taken⟩ := exists_steps_advance script limit poller
      exact ⟨more, by rw [Nat.zero_add, taken]⟩
  | succ count ih =>
      cases next : poller.nextEvent? with
      | none =>
          refine ⟨0, fun limit _ => ⟨0, ?_⟩⟩
          rw [advance_of_none next, steps_of_stopped (nextEvent?_eq_none.mp next)]
      | some time =>
          obtain ⟨enough, later⟩ := ih (poller.step script)
          refine ⟨max time enough, fun limit bound => ?_⟩
          obtain ⟨more, taken⟩ := later limit (by omega)
          refine ⟨more, ?_⟩
          rw [advance_of_early next (by omega), taken, ← steps_succ, Nat.add_right_comm]

variable {α : Type} {ready : JobPoller → Option α}

theorem exists_ready_of_await {now deadline : Nat} {answer : α}
    (answered : (poller.await script ready now deadline).2.2 = some answer) :
    ∃ count, ready (poller.steps script count) = some answer := by
  induction span : deadline - now using Nat.strongRecOn generalizing now poller with
  | ind span ih =>
      subst span
      obtain ⟨count, taken⟩ := exists_steps_advance script now poller
      rw [await] at answered
      split at answered
      · next found given =>
          obtain rfl := Option.some.inj answered
          exact ⟨count, taken ▸ given⟩
      · split at answered
        · cases answered
        · next time next =>
            split at answered
            · next bounds =>
                obtain ⟨more, given⟩ := ih (deadline - time) (by omega) answered rfl
                rw [taken, ← steps_add] at given
                exact ⟨count + more, given⟩
            · cases answered

theorem exists_await_of_ready {now time deadline : Nat} (begun : now ≤ time)
    (enough : time ≤ deadline) (given : (ready (poller.advance script time)).isSome) :
    ∃ answer, (poller.await script ready now deadline).2.2 = some answer := by
  induction span : deadline - now using Nat.strongRecOn generalizing now poller with
  | ind span ih =>
      subst span
      rw [await]
      split
      · next answer found => exact ⟨answer, rfl⟩
      · next missing =>
          rw [← advance_advance begun] at given
          cases next : (poller.advance script now).nextEvent? with
          | none =>
              rw [advance_of_none next, missing] at given
              cases given
          | some event =>
              have later := late_of_advance next
              have inTime : event ≤ time := by
                refine Nat.not_lt.mp fun late => ?_
                rw [advance_of_late next late, missing] at given
                cases given
              have bounds : now < event ∧ event ≤ deadline := ⟨later, by omega⟩
              simp only [bounds, and_self, if_true]
              exact ih (deadline - event) (by omega) inTime given rfl

end

section

variable {script : Nat → JobCall} {ended : Nat} {poller : JobPoller}

theorem terminal?_of_published {before : List JobStatus} {status : JobStatus}
    (published : poller.published = before ++ [status]) (terminal : status.isOver = true) :
    poller.terminal? = some (.ok status) := by
  rw [terminal?, lastStatus?, published, List.getLast?_concat, Option.filter_some, if_pos terminal]

theorem Tracks.firstOver_of_terminal? {halted : Prop}
    (tracks : Tracks script ended halted poller) (running : ¬ halted)
    (replies : ∀ number, (script number).ending ≠ .crash) {answer : Except Error JobStatus}
    (found : poller.terminal? = some answer) :
    ∃ number status, IsFirstOver script number status ∧ answer = .ok status := by
  unfold terminal? at found
  split at found
  · next status given =>
      obtain ⟨latest, terminal⟩ := Option.filter_eq_some_iff.mp given
      obtain ⟨number, first, _⟩ := tracks.firstOver (List.mem_of_getLast? latest) terminal
      exact ⟨number, status, first, (Option.some.inj found).symm⟩
  · next missing =>
      split at found
      · next stopped =>
          rw [tracks.stopped_iff_over fun number _ => replies number] at stopped
          rcases stopped with halt | ⟨status, member, terminal⟩
          · exact absurd halt running
          · rw [← tracks.published] at member
            obtain ⟨number, first, all⟩ := tracks.firstOver member terminal
            rw [lastStatus?, all, List.getLast?_concat, Option.filter_some,
              if_pos terminal] at missing
            cases missing
      · cases found

end

end JobPoller

namespace PollRun

section

variable {script : Nat → JobCall} {jobId : String} {interval : Nat}

theorem poller_replicate (count : Nat) :
    (of script jobId interval (List.replicate count .step)).poller =
      (JobPoller.launch jobId interval).steps script count := by
  induction count with
  | zero => rfl
  | succ count ih =>
      rw [List.replicate_succ', of_append, JobPoller.steps_add, ← ih]
      rfl

theorem eq_replicate_of_notMem {events : List PollEvent} (held : .drop ∉ events) :
    events = List.replicate events.length .step := by
  refine List.eq_replicate_of_mem fun event member => ?_
  cases event with
  | step => rfl
  | drop => exact absurd member held

variable (positive : 0 < interval)

include positive

theorem firstOver_of_await (replies : ∀ number, (script number).ending ≠ .crash) {count now : Nat}
    {deadline : Nat} {answer : Except Error JobStatus}
    (answered : ((of script jobId interval (List.replicate count .step)).poller.await script
      JobPoller.terminal? now deadline).2.2 = some answer) :
    ∃ number status, IsFirstOver script number status ∧ answer = .ok status := by
  obtain ⟨more, found⟩ := JobPoller.exists_ready_of_await answered
  rw [poller_replicate, ← JobPoller.steps_add, ← poller_replicate] at found
  have tracks := tracks_of script jobId interval (List.replicate (count + more) .step)
  refine tracks.firstOver_of_terminal? ?_ replies found
  rintro (zero | dropped)
  · omega
  · cases List.eq_of_mem_replicate dropped

theorem exists_await_of_firstOver (replies : ∀ number, (script number).ending ≠ .crash)
    {number : Nat} {status : JobStatus} (first : IsFirstOver script number status)
    (count now : Nat) :
    ∃ enough, ∀ deadline, enough ≤ deadline →
      ((of script jobId interval (List.replicate count .step)).poller.await script
        JobPoller.terminal? now deadline).2.2 = some (.ok status) := by
  obtain ⟨enough, later⟩ := JobPoller.exists_advance_steps script (2 * (number + 1))
    (of script jobId interval (List.replicate count .step)).poller
  obtain ⟨more, taken⟩ := later (max now enough) (Nat.le_max_right now enough)
  rw [poller_replicate, ← JobPoller.steps_add, ← poller_replicate, ← poller_replicate] at taken
  have steps : 2 * (number + 1) ≤ count + (2 * (number + 1) + more) := by omega
  obtain ⟨_, published⟩ := stopped_of_firstOver jobId positive first steps
  rw [← taken] at published
  have given := JobPoller.terminal?_of_published published first.terminal
  refine ⟨max now enough, fun deadline bound => ?_⟩
  obtain ⟨answer, answered⟩ := JobPoller.exists_await_of_ready (Nat.le_max_left now enough) bound
    (Option.isSome_of_eq_some given)
  obtain ⟨other, otherStatus, second, rfl⟩ := firstOver_of_await positive replies answered
  rw [answered, (first.unique second).2]

end

/-- Calls follow one another until one finds the job over or the poller is dropped, and waiting
gives the first terminal status. -/
theorem polls_until_over {script : Nat → JobCall} (jobId : String) {interval : Nat}
    (positive : 0 < interval) (replies : ∀ number, (script number).ending ≠ .crash) :
    (∀ events,
      let run := of script jobId interval events
      let calls := run.poller.calls
      (run.ended ≤ calls.length ∧ calls.length ≤ run.ended + 1) ∧
      (∀ number start next, calls[number]? = some start → calls[number + 1]? = some next →
        start + (script number).delay ≤ next) ∧
      (∀ number status, (script number).status? = some status → status.isOver = true →
        calls.length ≤ number + 1) ∧
      run.poller.lastStatus? = (received script run.ended).getLast? ∧
      (run.poller.hasStopped = true ↔
        .drop ∈ events ∨ ∃ status ∈ received script run.ended, status.isOver = true) ∧
      (run.poller.hasStopped = true →
        ∀ later, of script jobId interval (events ++ later) = run) ∧
      (.drop ∉ events →
        (∀ number status, IsFirstOver script number status →
          ∀ now, ∃ enough, ∀ deadline, enough ≤ deadline →
            (run.poller.await script JobPoller.terminal? now deadline).2.2 = some (.ok status)) ∧
        ∀ now deadline answer,
          (run.poller.await script JobPoller.terminal? now deadline).2.2 = some answer →
            ∃ number status, IsFirstOver script number status ∧ answer = .ok status)) ∧
    ∀ count, (∀ number, number < count → (script number).isLast = false) →
      (of script jobId interval (List.replicate (2 * count) .step)).ended = count := by
  refine ⟨fun events => ?_, fun count goesOn => (exists_resting jobId positive goesOn).1⟩
  have tracks := tracks_of script jobId interval events
  refine ⟨⟨tracks.ended_le, tracks.calls_le⟩, tracks.inTurn,
    fun number status answered terminal => tracks.calls_le_of_over answered terminal,
    ?_, ?_, ?_, ?_⟩
  · rw [JobPoller.lastStatus?, tracks.published]
  · rw [tracks.stopped_iff_over fun number _ => replies number, or_assoc]
    exact or_iff_right (Nat.ne_of_gt positive)
  · intro stopped later
    rw [of_append, after_of_stopped stopped]
  · intro held
    rw [eq_replicate_of_notMem held]
    exact ⟨fun number status first => exists_await_of_firstOver positive replies first _,
      fun now deadline answer => firstOver_of_await positive replies⟩

theorem polls_until_over_through_errors :
    let running : JobStatus := { id := "job", state := .running }
    let failed : JobStatus := { id := "job", state := .failed }
    let script : Nat → JobCall
      | 0 => { ending := .reply (.error .json) }
      | 1 => { ending := .reply (.ok running) }
      | 2 => { delay := 7, ending := .reply (.error .json) }
      | _ => { ending := .reply (.ok failed) }
    0 < 2 ∧ (∀ number, (script number).ending ≠ .crash) ∧ IsFirstOver script 3 failed ∧
      (of script "job" 2 (List.replicate 6 .step)).poller.lastStatus? = some running ∧
      ∃ enough, ∀ deadline, enough ≤ deadline →
        ((of script "job" 2 (List.replicate 5 .step)).poller.await script
          JobPoller.terminal? 1 deadline).2.2 = some (.ok failed) := by
  intro running failed script
  have replies : ∀ number, (script number).ending ≠ .crash := by
    rintro (_ | _ | _ | number) crash <;> cases crash
  have first : IsFirstOver script 3 failed := by
    refine ⟨rfl, rfl, ?_⟩
    rintro (_ | _ | _ | number) earlier
    · rfl
    · rfl
    · rfl
    · omega
  have positive : 0 < 2 := by decide
  obtain ⟨runs, _⟩ := polls_until_over "job" positive replies
  obtain ⟨_, _, _, latest, _, _, _⟩ := runs (List.replicate 6 .step)
  obtain ⟨_, _, _, _, _, _, waits⟩ := runs (List.replicate 5 .step)
  exact ⟨positive, replies, first, latest, (waits (by decide)).1 3 failed first 1⟩

end PollRun

end CatalogBrowser
