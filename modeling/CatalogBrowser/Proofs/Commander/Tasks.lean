import CatalogBrowser.Proofs.Commander.Panes

/-!
The tasks of a run: each waits for the replies to its own calls, and no other task and no other
pane waits for them.
-/

namespace CatalogBrowser

namespace CatalogTask

def numbers (task : CatalogTask) : List Nat := task.parts.map Prod.fst

variable (task : CatalogTask) (answers : List (Nat × Finished))

@[simp] theorem name_hear : (task.hear answers).name = task.name := rfl

@[simp] theorem numbers_hear : (task.hear answers).numbers = task.numbers := by
  simp [numbers, hear, Function.comp_def]

@[simp] theorem length_parts_hear : (task.hear answers).parts.length = task.parts.length := by
  simp [hear]

theorem hear_append (more : List (Nat × Finished)) :
    task.hear (answers ++ more) = (task.hear answers).hear more := by
  simp [hear, Function.comp_def, List.lookup_append, Option.map_or, Option.or_assoc]

theorem mem_parts_hear {number : Nat} :
    (number, none) ∈ (task.hear answers).parts ↔
      (number, none) ∈ task.parts ∧ answers.lookup number = none := by
  simp only [hear, List.mem_map, Prod.mk.injEq, Option.or_eq_none_iff, Option.map_eq_none_iff]
  constructor
  · rintro ⟨⟨other, result⟩, member, rfl, rfl, unheard⟩
    exact ⟨member, unheard⟩
  · rintro ⟨member, unheard⟩
    exact ⟨(number, none), member, rfl, rfl, unheard⟩

theorem hear_of_answered {task : CatalogTask} (answered : ∀ part ∈ task.parts, part.2.isSome) :
    task.hear answers = task := by
  obtain ⟨name, parts⟩ := task
  have kept : ∀ part ∈ parts,
      (part.1, part.2.or ((answers.lookup part.1).map Finished.result)) = id part := by
    rintro ⟨number, answer⟩ member
    obtain ⟨result, rfl⟩ := Option.isSome_iff_exists.mp (answered _ member)
    rfl
  rw [hear, List.map_congr_left kept, List.map_id]

theorem result?_of_open {task : CatalogTask} {number : Nat}
    (waits : (number, none) ∈ task.parts) : task.result? = none := by
  unfold result?
  split <;> simp_all

theorem answered_of_result? {task : CatalogTask} {result : Except Error (Option CatalogAnswer)}
    (ended : task.result? = some result) : ∀ part ∈ task.parts, part.2.isSome := by
  intro part member
  by_contra waits
  obtain ⟨number, answer⟩ := part
  obtain rfl : answer = none := by simpa using waits
  simp [result?_of_open member] at ended

theorem exists_open {task : CatalogTask}
    (size : task.parts.length = 1 ∨ task.parts.length = 2) (unended : task.result? = none) :
    ∃ number, (number, none) ∈ task.parts := by
  obtain ⟨name, parts⟩ := task
  rcases size with one | two
  · obtain ⟨⟨number, answer⟩, rfl⟩ := List.length_eq_one_iff.mp one
    cases answer with
    | none => exact ⟨number, by simp⟩
    | some result => simp [result?] at unended
  · obtain ⟨⟨first, source⟩, ⟨second, target⟩, rfl⟩ := List.length_eq_two.mp two
    cases source with
    | none => exact ⟨first, by simp⟩
    | some sourceResult =>
        cases target with
        | none => exact ⟨second, by simp⟩
        | some targetResult => simp [result?] at unended

end CatalogTask

theorem CatalogWork.lookup_ended {work : CatalogWork}
    (named : (work.tasks.map CatalogTask.name).Nodup) {task : CatalogTask}
    (member : task ∈ work.tasks) : work.ended.lookup task.name = task.result? := by
  have keys : (work.ended.map Prod.fst).Sublist (work.tasks.map CatalogTask.name) := by
    unfold ended
    induction work.tasks with
    | nil => exact List.Sublist.slnil
    | cons first rest ih =>
        rw [List.filterMap_cons]
        cases first.result? with
        | none => exact ih.cons _
        | some result => exact ih.cons_cons _
  have reported {result : Except Error (Option CatalogAnswer)}
      (found : work.ended.lookup task.name = some result) : task.result? = some result := by
    obtain ⟨other, present, ended⟩ := List.mem_filterMap.mp (mem_of_lookup found)
    obtain ⟨_, ended, same⟩ := Option.map_eq_some_iff.mp ended
    obtain ⟨name, rfl⟩ := Prod.mk.injEq .. ▸ same
    rwa [← List.inj_on_of_nodup_map named present member name]
  cases ended : task.result? with
  | none =>
      rw [Option.eq_none_iff_forall_ne_some]
      intro result found
      simp [reported found] at ended
  | some result =>
      refine lookup_of_mem_nodup (keys.nodup named) (List.mem_filterMap.mpr ⟨task, member, ?_⟩)
      rw [ended]
      rfl

theorem CatalogWork.lookup_ended_of_unnamed {work : CatalogWork} {name : Nat}
    (unnamed : name ∉ work.tasks.map CatalogTask.name) : work.ended.lookup name = none := by
  rw [List.lookup_eq_none_iff]
  intro entry member
  obtain ⟨task, present, ended⟩ := List.mem_filterMap.mp member
  obtain ⟨result, _, rfl⟩ := Option.map_eq_some_iff.mp ended
  have different : name ≠ task.name := fun same => unnamed (same ▸ List.mem_map_of_mem present)
  simpa using different

namespace CommanderRun

/-- An event that answers or drops what waits under a number. -/
def Touches (run : CommanderRun) (number : Nat) : CommanderEvent → Prop
  | .reply other _ => other = number
  | .cancel name => ∃ task ∈ run.work.tasks, task.name = name ∧ number ∈ task.numbers
  | .load | .start _ _ | .replaceRoots _ _ | .collapse _ _ => False

/-- A call is due at a pane, where an operation waits for it. -/
def Awaited (work : CatalogWork) (number : Nat) (pane : Pane) : Prop :=
  work.parked.lookup number = some pane ∧
    ((work.session pane).waiting.lookup number).isSome

/-- What holds of the tasks of a run between two events. -/
structure Kept (run : CommanderRun) (alone : Pane → CatalogRun) : Prop
    extends Mirrors run.work alone where
  calls : ∀ pane, (alone pane).WaitsForCalls
  quiet : run.work.notes = []
  named : (run.work.tasks.map CatalogTask.name).Nodup
  begun : ∀ task ∈ run.work.tasks, task.name < run.begun
  unreported : ∀ name, name ∈ run.work.tasks.map CatalogTask.name ∨ run.begun ≤ name →
    run.results.lookup name = none
  sized : ∀ task ∈ run.work.tasks, task.parts.length = 1 ∨ task.parts.length = 2
  unended : ∀ task ∈ run.work.tasks, task.result? = none
  numbered : ∀ task ∈ run.work.tasks, ∀ number ∈ task.numbers, number < run.work.fetches
  apart : ∀ task ∈ run.work.tasks, ∀ other ∈ run.work.tasks, ∀ number ∈ task.numbers,
    number ∈ other.numbers → task.name = other.name
  awaited : ∀ task ∈ run.work.tasks, ∀ number, (number, none) ∈ task.parts →
    ∃ pane, Awaited run.work number pane

section

variable {run : CommanderRun} {alone : Pane → CatalogRun} {event : CommanderEvent} {number : Nat}

/-! Numbers that an event does not touch -/

theorem fetches_le_loadNumber (run : CommanderRun) (pane : Pane) :
    run.work.fetches ≤ run.loadNumber pane := by
  cases pane with
  | source => exact Nat.le_refl _
  | target => exact Nat.le_succ _

theorem mem_due {work : CatalogWork} {pane : Pane} {task : CatalogTask} :
    number ∈ due work pane task ↔
      number ∈ task.numbers ∧ work.parked.lookup number = some pane := by
  simp [due, CatalogTask.numbers]

theorem number?_seen (low : number < run.work.fetches) {pane : Pane} {share : CatalogEvent}
    (member : share ∈ run.seen pane event) (about : share.number? = some number) :
    run.work.parked.lookup number = some pane ∧ run.Touches number event := by
  cases event with
  | load =>
      obtain rfl := List.mem_singleton.mp member
      obtain rfl := Option.some.inj about
      exact absurd (run.fetches_le_loadNumber pane) (Nat.not_le.mpr low)
  | start owner operation =>
      simp only [seen, List.mem_ite_nil_right, List.mem_singleton] at member
      obtain ⟨_, rfl⟩ := member
      simp only [CatalogEvent.number?, Option.some.injEq] at about
      omega
  | reply other reply =>
      simp only [seen, List.mem_ite_nil_right, List.mem_singleton] at member
      obtain ⟨parked, rfl⟩ := member
      obtain rfl := Option.some.inj about
      exact ⟨parked, rfl⟩
  | cancel name =>
      simp only [seen] at member
      split at member
      · next task found =>
        obtain ⟨other, owed, rfl⟩ := List.mem_map.mp member
        obtain rfl := Option.some.inj about
        obtain ⟨own, parked⟩ := mem_due.mp owed
        exact ⟨parked, task, List.mem_of_find?_eq_some found,
          by simpa using List.find?_some found, own⟩
      · simp at member
  | replaceRoots owner nodes | collapse owner id =>
      simp only [seen, List.mem_ite_nil_right, List.mem_singleton] at member
      obtain ⟨_, rfl⟩ := member
      simp [CatalogEvent.number?] at about

theorem act_start (run : CommanderRun) (pane : Pane) (operation : CatalogOperation) :
    (run.act (.start pane operation)).session pane =
        ((run.work.session pane).start run.work.fetches operation).1 ∧
      ((∃ finish,
          ((run.work.session pane).start run.work.fetches operation).2 = .finished finish ∧
          (run.act (.start pane operation)).fetches = run.work.fetches ∧
          (run.act (.start pane operation)).parked = run.work.parked) ∨
        ∃ call, ((run.work.session pane).start run.work.fetches operation).2 = .waiting call ∧
          (run.act (.start pane operation)).fetches = run.work.fetches + 1 ∧
          (run.act (.start pane operation)).parked =
            run.work.parked ++ [(run.work.fetches, pane)]) := by
  cases begun : (run.work.session pane).start run.work.fetches operation with
  | mk session started =>
      have own : (run.work.setSession pane session).session pane = session := by simp
      cases started with
      | finished finish =>
          rw [act, run.work.start_of_finished run.begun begun]
          exact ⟨own, Or.inl ⟨finish, rfl, rfl, rfl⟩⟩
      | waiting call =>
          rw [act, run.work.start_of_waiting run.begun begun]
          exact ⟨own, Or.inr ⟨call, rfl, rfl, rfl⟩⟩

theorem act_reply (run : CommanderRun) (number : Nat) (reply : Except Error (List CatalogNode)) :
    (run.act (.reply number reply)).fetches = run.work.fetches ∧
      (run.act (.reply number reply)).parked =
        run.work.parked.filter fun entry => entry.1 ≠ number := by
  rw [act]
  cases parked : run.work.parked.lookup number with
  | none =>
      rw [run.work.finish_of_missing parked]
      refine ⟨rfl, ?_⟩
      rw [eq_comm, List.filter_eq_self]
      intro entry member
      have different : number ≠ entry.1 := by
        simpa using List.lookup_eq_none_iff.mp parked entry member
      simpa using different.symm
  | some owner =>
      rw [run.work.finish_of_parked parked rfl]
      exact ⟨rfl, rfl⟩

theorem act_cancel (run : CommanderRun) (name : Nat) :
    (run.act (.cancel name)).fetches = run.work.fetches ∧
      (run.act (.cancel name)).parked = run.work.parked := by
  rw [act]
  cases found : run.work.tasks.find? fun task => task.name = name with
  | none =>
      rw [run.work.cancel_of_missing found]
      exact ⟨rfl, rfl⟩
  | some task =>
      obtain ⟨commander, cancelled, _⟩ := run.work.cancel_of_found found
      rw [cancelled]
      exact ⟨rfl, rfl⟩

theorem fetches_le_act (event : CommanderEvent) :
    run.work.fetches ≤ (run.act event).fetches := by
  cases event with
  | load =>
      rw [act, run.work.start_both]
      exact Nat.le_add_right _ 2
  | start pane operation =>
      rcases (run.act_start pane operation).2 with ⟨_, _, fetches, _⟩ | ⟨_, _, fetches, _⟩ <;>
        omega
  | reply number reply => exact Nat.le_of_eq (run.act_reply number reply).1.symm
  | cancel name => exact Nat.le_of_eq (run.act_cancel name).1.symm
  | replaceRoots pane nodes | collapse pane id => exact Nat.le_refl _

theorem lookup_parked_reply (reply : Except Error (List CatalogNode)) :
    (run.act (.reply number reply)).parked.lookup number = none := by
  rw [(run.act_reply number reply).2, lookup_filter_ne, if_pos rfl]

theorem lookup_parked_act (low : number < run.work.fetches)
    (other : ∀ reply, event ≠ .reply number reply) :
    (run.act event).parked.lookup number = run.work.parked.lookup number := by
  cases event with
  | load =>
      rw [act, run.work.start_both, List.lookup_append, lookup_cons_of_ne (by simp; omega),
        lookup_cons_of_ne (by simp; omega)]
      simp
  | start pane operation =>
      rcases (run.act_start pane operation).2 with ⟨_, _, _, parked⟩ | ⟨_, _, _, parked⟩
      · rw [parked]
      · rw [parked, List.lookup_append, lookup_cons_of_ne (by simp; omega)]
        simp
  | reply replied reply =>
      have different : number ≠ replied := fun same => other reply (by rw [same])
      rw [(run.act_reply replied reply).2, lookup_filter_ne, if_neg different]
  | cancel name => rw [(run.act_cancel name).2]
  | replaceRoots pane nodes | collapse pane id => rfl

theorem Mirrors.lookup_waiting_act (mirrors : Mirrors run.work alone)
    (low : number < run.work.fetches) (untouched : ¬ run.Touches number event) (pane : Pane) :
    ((run.act event).session pane).waiting.lookup number =
      (run.work.session pane).waiting.lookup number := by
  rw [← (mirrors.relays event).mirrors.session pane, ← mirrors.session pane]
  exact CatalogRun.lookup_waiting_after fun share member about =>
    untouched (number?_seen low member about).2

/-! What a step keeps -/

theorem mem_spared {task : CatalogTask} (member : task ∈ run.spared event) :
    task ∈ run.work.tasks := by
  cases event with
  | cancel name => exact List.mem_of_mem_filter member
  | load | start | reply | replaceRoots | collapse => exact member

theorem name_begins {task : CatalogTask} (member : task ∈ run.begins event) :
    task.name = run.begun ∧ (run.begins event).length = 1 := by
  cases event with
  | load | start =>
      obtain rfl := List.mem_singleton.mp member
      exact ⟨rfl, rfl⟩
  | reply | cancel | replaceRoots | collapse => simp [begins] at member

/-- The tasks that are there once an event has happened, whether they have ended by it or not. -/
def tasksAt (run : CommanderRun) (event : CommanderEvent) : List CatalogTask :=
  run.spared event ++ run.begins event

theorem Kept.name_tasksAt (kept : Kept run alone) {task : CatalogTask}
    (member : task ∈ run.tasksAt event) :
    run.results.lookup task.name = none ∧
      task.name < run.begun + (run.begins event).length := by
  rcases List.mem_append.mp member with old | new
  · have present := mem_spared old
    exact ⟨kept.unreported _ (Or.inl (List.mem_map_of_mem present)),
      Nat.lt_add_right _ (kept.begun task present)⟩
  · obtain ⟨name, one⟩ := name_begins new
    rw [name, one]
    exact ⟨kept.unreported _ (Or.inr (Nat.le_refl _)), Nat.lt_succ_self _⟩

theorem Kept.named_tasksAt (kept : Kept run alone) :
    ((run.tasksAt event).map CatalogTask.name).Nodup := by
  have spared : ((run.spared event).map CatalogTask.name).Nodup := by
    cases event with
    | cancel name => exact (List.filter_sublist.map _).nodup kept.named
    | load | start | reply | replaceRoots | collapse => exact kept.named
  rw [tasksAt, List.map_append, List.nodup_append]
  refine ⟨spared, ?_, ?_⟩
  · cases event with
    | load | start => exact List.nodup_singleton _
    | reply | cancel | replaceRoots | collapse => exact List.nodup_nil
  · intro old oldNamed new newNamed same
    obtain ⟨task, member, rfl⟩ := List.mem_map.mp oldNamed
    obtain ⟨other, begins, rfl⟩ := List.mem_map.mp newNamed
    have earlier := kept.begun task (mem_spared member)
    rw [same, (name_begins begins).1] at earlier
    exact Nat.lt_irrefl _ earlier

theorem Kept.tasks_act (kept : Kept run alone) : (run.act event).tasks =
    (run.tasksAt event).map fun task => task.hear (run.given alone event) :=
  (kept.relays event).tasks

theorem Kept.names_act (kept : Kept run alone) : (run.act event).tasks.map CatalogTask.name =
    (run.tasksAt event).map CatalogTask.name := by
  rw [kept.tasks_act, List.map_map]
  rfl

theorem Kept.names_step (kept : Kept run alone) :
    ((run.step event).work.tasks.map CatalogTask.name).Sublist
      ((run.tasksAt event).map CatalogTask.name) := by
  rw [← kept.names_act]
  exact List.filter_sublist.map _

theorem Kept.mem_tasks_step (kept : Kept run alone) {task : CatalogTask} :
    task ∈ (run.step event).work.tasks ↔
      (∃ before ∈ run.tasksAt event, before.hear (run.given alone event) = task) ∧
        task.result? = none := by
  change task ∈ (run.act event).tasks.filter _ ↔ _
  rw [kept.tasks_act]
  simp [List.mem_filter]

theorem Kept.lookup_results_step (kept : Kept run alone) {task : CatalogTask}
    (member : task ∈ run.tasksAt event) :
    (run.step event).results.lookup task.name =
      (task.hear (run.given alone event)).result? := by
  have heard : task.hear (run.given alone event) ∈ (run.act event).tasks := by
    rw [kept.tasks_act]
    exact List.mem_map_of_mem member
  have named : ((run.act event).tasks.map CatalogTask.name).Nodup := by
    rw [kept.names_act]
    exact kept.named_tasksAt
  change (run.results ++ (run.act event).ended).lookup task.name = _
  rw [List.lookup_append, (kept.name_tasksAt member).1, Option.none_or]
  exact CatalogWork.lookup_ended named heard

theorem Kept.lookup_results_of_unnamed (kept : Kept run alone) {name : Nat}
    (unnamed : name ∉ (run.tasksAt event).map CatalogTask.name) :
    (run.step event).results.lookup name = run.results.lookup name := by
  change (run.results ++ (run.act event).ended).lookup name = _
  rw [List.lookup_append, CatalogWork.lookup_ended_of_unnamed (by rwa [kept.names_act]),
    Option.or_none]

theorem sized_begins {task : CatalogTask} (member : task ∈ run.begins event) :
    task.parts.length = 1 ∨ task.parts.length = 2 := by
  cases event with
  | load =>
      obtain rfl := List.mem_singleton.mp member
      exact Or.inr rfl
  | start =>
      obtain rfl := List.mem_singleton.mp member
      exact Or.inl rfl
  | reply | cancel | replaceRoots | collapse => simp [begins] at member

theorem numbers_begins {task : CatalogTask} (member : task ∈ run.begins event)
    (own : number ∈ task.numbers) : run.work.fetches ≤ number := by
  cases event with
  | load =>
      obtain rfl := List.mem_singleton.mp member
      simp only [CatalogTask.numbers, List.map_cons, List.map_nil, List.mem_cons,
        List.not_mem_nil, or_false] at own
      omega
  | start =>
      obtain rfl := List.mem_singleton.mp member
      obtain rfl := List.mem_singleton.mp own
      exact Nat.le_refl _
  | reply | cancel | replaceRoots | collapse => simp [begins] at member

theorem awaited_load (mirrors : Mirrors run.work alone)
    (calls : ∀ pane, (alone pane).WaitsForCalls) :
    (run.act .load).fetches = run.work.fetches + 2 ∧
      ((run.act .load).parked.lookup run.work.fetches = some .source ∧
        ((run.act .load).session .source).waiting.lookup run.work.fetches = some .roots) ∧
      (run.act .load).parked.lookup (run.work.fetches + 1) = some .target ∧
        ((run.act .load).session .target).waiting.lookup (run.work.fetches + 1) =
          some .roots := by
  -- both numbers are new, so that no older entry hides the new ones
  have unparked {number : Nat} (fresh : run.work.fetches ≤ number) :=
    mirrors.lookup_parked_of_fresh fresh
  have free (pane : Pane) {number : Nat} (fresh : run.work.fetches ≤ number) :
      (run.work.session pane).waiting.lookup number = none := by
    by_contra found
    rw [← mirrors.session pane] at found
    exact absurd (mirrors.below pane number (calls pane number found)) (Nat.not_lt.mpr fresh)
  have acts : run.act .load = _ := run.work.start_both run.begun
  rw [acts]
  refine ⟨rfl, ⟨?_, ?_⟩, ?_, ?_⟩
  · rw [List.lookup_append, unparked (Nat.le_refl _)]
    simp
  · change ((run.work.session .source).wait _ _).waiting.lookup _ = _
    rw [CatalogSession.wait, List.lookup_append, free .source (Nat.le_refl _)]
    simp
  · rw [List.lookup_append, unparked (Nat.le_succ _)]
    simp [lookup_cons_of_ne]
  · change ((run.work.session .target).wait _ _).waiting.lookup _ = _
    rw [CatalogSession.wait, List.lookup_append, free .target (Nat.le_succ _)]
    simp

theorem awaited_start (mirrors : Mirrors run.work alone) {pane : Pane}
    {operation : CatalogOperation}
    (unanswered : (run.given alone (.start pane operation)).lookup run.work.fetches = none) :
    (run.act (.start pane operation)).fetches = run.work.fetches + 1 ∧
      Awaited (run.act (.start pane operation)) run.work.fetches pane := by
  obtain ⟨session, ⟨finish, ended, _⟩ | ⟨call, waits, fetches, parked⟩⟩ :=
    run.act_start pane operation
  · rw [mirrors.given_start, ended] at unanswered
    simp at unanswered
  · refine ⟨fetches, ?_, ?_⟩
    · rw [parked, List.lookup_append, mirrors.lookup_parked_of_fresh (Nat.le_refl _)]
      simp
    · rw [session]
      rcases (run.work.session pane).start_waits run.work.fetches operation with
        ⟨finish, ended, _⟩ | ⟨_, _, _, waiting⟩
      · rw [ended] at waits
        cases waits
      · rw [waiting, List.lookup_append]
        simp

theorem Kept.awaited_begins (kept : Kept run alone) {task : CatalogTask}
    (member : task ∈ run.begins event)
    (waits : (number, none) ∈ (task.hear (run.given alone event)).parts) :
    (∀ own ∈ task.numbers, own < (run.act event).fetches) ∧
      ∃ pane, Awaited (run.act event) number pane := by
  obtain ⟨part, unanswered⟩ := (CatalogTask.mem_parts_hear _ _).mp waits
  cases event with
  | load =>
      obtain rfl := List.mem_singleton.mp member
      obtain ⟨fetches, source, target⟩ := awaited_load kept.toMirrors kept.calls
      refine ⟨?_, ?_⟩
      · intro own among
        simp only [CatalogTask.numbers, List.map_cons, List.map_nil, List.mem_cons,
          List.not_mem_nil, or_false] at among
        omega
      · simp only [List.mem_cons, Prod.mk.injEq, and_true, List.not_mem_nil, or_false] at part
        rcases part with rfl | rfl
        · exact ⟨.source, source.1, by rw [source.2]; rfl⟩
        · exact ⟨.target, target.1, by rw [target.2]; rfl⟩
  | start pane operation =>
      obtain rfl := List.mem_singleton.mp member
      simp only [List.mem_singleton, Prod.mk.injEq, and_true] at part
      subst part
      obtain ⟨fetches, awaited⟩ := awaited_start kept.toMirrors unanswered
      refine ⟨?_, pane, awaited⟩
      intro own among
      obtain rfl := List.mem_singleton.mp among
      omega
  | reply | cancel | replaceRoots | collapse => simp [begins] at member

theorem Kept.untouched (kept : Kept run alone) {task : CatalogTask}
    (member : task ∈ run.spared event) (waits : (number, none) ∈ task.parts)
    (unanswered : (run.given alone event).lookup number = none) :
    ¬ run.Touches number event := by
  have present := mem_spared member
  obtain ⟨pane, parked, waiting⟩ := kept.awaited task present number waits
  intro touches
  cases event with
  | load | start | replaceRoots | collapse => exact touches
  | reply other reply =>
      obtain rfl : other = number := touches
      rw [kept.given_reply parked reply] at unanswered
      rw [← CatalogSession.finish_isSome _ _ reply] at waiting
      obtain ⟨finish, answered⟩ := Option.isSome_iff_exists.mp waiting
      simp [answered] at unanswered
  | cancel name =>
      obtain ⟨other, among, rfl, own⟩ := touches
      have same := kept.apart task present other among number
        (List.mem_map_of_mem waits) own
      have different : task.name ≠ other.name := by
        simpa using (List.mem_filter.mp member).2
      exact different same

theorem Kept.step (kept : Kept run alone) (event : CommanderEvent) :
    Kept (run.step event) (run.advance alone event) where
  toMirrors := kept.toMirrors.step event
  calls := fun pane => (kept.calls pane).after _
  quiet := rfl
  named := kept.names_step.nodup kept.named_tasksAt
  begun := by
    intro task member
    obtain ⟨⟨before, present, rfl⟩, _⟩ := kept.mem_tasks_step.mp member
    exact (kept.name_tasksAt present).2
  unreported := by
    rintro name (still | later)
    · obtain ⟨task, member, rfl⟩ := List.mem_map.mp still
      obtain ⟨⟨before, present, rfl⟩, unended⟩ := kept.mem_tasks_step.mp member
      exact (kept.lookup_results_step present).trans unended
    · have unnamed : name ∉ (run.tasksAt event).map CatalogTask.name := by
        intro named
        obtain ⟨task, present, rfl⟩ := List.mem_map.mp named
        exact absurd (kept.name_tasksAt present).2 (Nat.not_lt.mpr later)
      rw [kept.lookup_results_of_unnamed unnamed]
      exact kept.unreported name (Or.inr (Nat.le_of_add_right_le later))
  sized := by
    intro task member
    obtain ⟨⟨before, present, rfl⟩, _⟩ := kept.mem_tasks_step.mp member
    rw [CatalogTask.length_parts_hear]
    rcases List.mem_append.mp present with old | new
    · exact kept.sized before (mem_spared old)
    · exact sized_begins new
  unended := fun task member => (kept.mem_tasks_step.mp member).2
  numbered := by
    intro task member number own
    obtain ⟨⟨before, present, rfl⟩, unended⟩ := kept.mem_tasks_step.mp member
    rw [CatalogTask.numbers_hear] at own
    rcases List.mem_append.mp present with old | new
    · exact Nat.lt_of_lt_of_le (kept.numbered before (mem_spared old) number own)
        (fetches_le_act event)
    · obtain ⟨part, waits⟩ := CatalogTask.exists_open
        (by simpa using sized_begins new) unended
      exact (kept.awaited_begins new waits).1 number own
  apart := by
    intro task member other among number own shared
    obtain ⟨⟨before, present, rfl⟩, _⟩ := kept.mem_tasks_step.mp member
    obtain ⟨⟨otherBefore, otherPresent, rfl⟩, _⟩ := kept.mem_tasks_step.mp among
    rw [CatalogTask.numbers_hear] at own shared
    rw [CatalogTask.name_hear, CatalogTask.name_hear]
    -- new tasks have numbers that no older task has
    rcases List.mem_append.mp present with old | new <;>
      rcases List.mem_append.mp otherPresent with otherOld | otherNew
    · exact kept.apart before (mem_spared old) otherBefore (mem_spared otherOld) number own shared
    · have low := kept.numbered before (mem_spared old) number own
      exact absurd low (Nat.not_lt.mpr (numbers_begins otherNew shared))
    · have low := kept.numbered otherBefore (mem_spared otherOld) number shared
      exact absurd low (Nat.not_lt.mpr (numbers_begins new own))
    · rw [(name_begins new).1, (name_begins otherNew).1]
  awaited := by
    intro task member number waits
    obtain ⟨⟨before, present, rfl⟩, _⟩ := kept.mem_tasks_step.mp member
    rcases List.mem_append.mp present with old | new
    -- a part that is still open was not touched, and what is not touched stays
    · obtain ⟨part, unanswered⟩ := (CatalogTask.mem_parts_hear _ _).mp waits
      have untouched := kept.untouched old part unanswered
      have low := kept.numbered before (mem_spared old) number (List.mem_map_of_mem part)
      obtain ⟨pane, parked, waiting⟩ := kept.awaited before (mem_spared old) number part
      refine ⟨pane, ?_, ?_⟩
      · refine (lookup_parked_act low ?_).trans parked
        rintro reply rfl
        exact untouched rfl
      · rw [← kept.lookup_waiting_act low untouched pane] at waiting
        exact waiting
    · exact (kept.awaited_begins new waits).2

end

/-! Whole runs -/

theorem Kept.after {run : CommanderRun} {alone : Pane → CatalogRun} (kept : Kept run alone)
    (events : List CommanderEvent) :
    Kept (run.after events) fun pane => (alone pane).after (run.seenOf pane events) := by
  induction events generalizing run alone with
  | nil => exact kept
  | cons event rest ih =>
      have next := ih (kept.step event)
      simp only [advance, ← CatalogRun.after_append] at next
      exact next

theorem kept_opened : Kept opened fun pane => .opened pane.name where
  session := by rintro (_ | _) <;> rfl
  below := fun _ _ member => absurd member List.not_mem_nil
  called := fun _ member => absurd member List.not_mem_nil
  calls := fun _ _ found => absurd rfl found
  quiet := rfl
  named := List.nodup_nil
  begun := fun _ member => absurd member List.not_mem_nil
  unreported := fun _ _ => rfl
  sized := fun _ member => absurd member List.not_mem_nil
  unended := fun _ member => absurd member List.not_mem_nil
  numbered := fun _ member => absurd member List.not_mem_nil
  apart := fun _ member => absurd member List.not_mem_nil
  awaited := fun _ member => absurd member List.not_mem_nil

theorem kept_of (events : List CommanderEvent) : Kept (of events) (alone events) :=
  kept_opened.after events

theorem Kept.notes_step {run : CommanderRun} {alone : Pane → CatalogRun} (kept : Kept run alone)
    (event : CommanderEvent) :
    (run.step event).notes =
      run.notes ++ (run.given alone event).flatMap fun answer => answer.2.notes := by
  change run.notes ++ (run.act event).notes = _
  rw [(kept.relays event).notes, kept.quiet, List.nil_append]

end CommanderRun

end CatalogBrowser
