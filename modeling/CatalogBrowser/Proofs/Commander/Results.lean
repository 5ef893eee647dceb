import CatalogBrowser.Proofs.Commander.Tasks

/-!
What a task ends with: the answers that the trees give under the numbers of its calls.  Nothing is
reported for a task that was dropped, since what it waited for never answers.
-/

namespace CatalogBrowser

namespace CommanderRun

variable {run : CommanderRun} {alone : Pane → CatalogRun} {event : CommanderEvent} {number : Nat}

def givenBy (run : CommanderRun) (alone : Pane → CatalogRun) :
    List CommanderEvent → List (Nat × Finished)
  | [] => []
  | event :: rest =>
    run.given alone event ++ (run.step event).givenBy (run.advance alone event) rest

theorem Kept.lookup_results_after (kept : Kept run alone) {name : Nat} (before : name < run.begun)
    (gone : name ∉ run.work.tasks.map CatalogTask.name) (later : List CommanderEvent) :
    (run.after later).results.lookup name = run.results.lookup name := by
  induction later generalizing run alone with
  | nil => rfl
  | cons event rest ih =>
      have unnamed : name ∉ (run.tasksAt event).map CatalogTask.name := by
        intro named
        obtain ⟨task, present, rfl⟩ := List.mem_map.mp named
        rcases List.mem_append.mp present with old | new
        · exact gone (List.mem_map_of_mem (mem_spared old))
        · rw [(name_begins new).1] at before
          exact Nat.lt_irrefl _ before
      have still : name ∉ (run.step event).work.tasks.map CatalogTask.name :=
        fun named => unnamed (kept.names_step.subset named)
      exact (ih (kept.step event) (Nat.lt_add_right _ before) still).trans
        (kept.lookup_results_of_unnamed unnamed)

theorem Kept.lookup_results_of_tasksAt (kept : Kept run alone) {task : CatalogTask}
    (member : task ∈ run.tasksAt event) (rest : List CommanderEvent)
    (goesOn : ∀ other ∈ (run.step event).work.tasks,
      ((run.step event).after rest).results.lookup other.name =
        (other.hear ((run.step event).givenBy (run.advance alone event) rest)).result?) :
    (run.after (event :: rest)).results.lookup task.name =
      (task.hear (run.givenBy alone (event :: rest))).result? := by
  have heard := kept.lookup_results_step member
  rw [givenBy, CatalogTask.hear_append]
  change ((run.step event).after rest).results.lookup task.name = _
  cases ended : (task.hear (run.given alone event)).result? with
  | none => exact goesOn _ (kept.mem_tasks_step.mpr ⟨⟨task, member, rfl⟩, ended⟩)
  | some result =>
      rw [ended] at heard
      have gone : task.name ∉ (run.step event).work.tasks.map CatalogTask.name := by
        intro named
        rw [(kept.step event).unreported _ (Or.inl named)] at heard
        cases heard
      rw [(kept.step event).lookup_results_after (kept.name_tasksAt member).2 gone, heard,
        CatalogTask.hear_of_answered _ (CatalogTask.answered_of_result? ended), ended]

/-- A number is that of an earlier call, and no other pane waits for the reply. -/
structure Belongs (run : CommanderRun) (number : Nat) (pane : Pane) : Prop where
  low : number < run.work.fetches
  sole : ∀ other, run.work.parked.lookup number = some other → other = pane

theorem Belongs.step {pane : Pane} (belongs : Belongs run number pane) (event : CommanderEvent) :
    Belongs (run.step event) number pane where
  low := Nat.lt_of_lt_of_le belongs.low (fetches_le_act event)
  sole := by
    intro other parked
    change (run.act event).parked.lookup number = some other at parked
    by_cases answered : ∃ reply, event = .reply number reply
    · obtain ⟨reply, rfl⟩ := answered
      rw [lookup_parked_reply] at parked
      cases parked
    · rw [lookup_parked_act belongs.low (not_exists.mp answered)] at parked
      exact belongs.sole other parked

theorem Belongs.lookup_given {pane : Pane} (belongs : Belongs run number pane)
    (alone : Pane → CatalogRun) (event : CommanderEvent) :
    (run.given alone event).lookup number =
      ((alone pane).answers (run.seen pane event)).lookup number := by
  have others {other : Pane} (different : other ≠ pane) :
      ((alone other).answers (run.seen other event)).lookup number = none :=
    CatalogRun.lookup_answers_eq_none fun share member about =>
      different (belongs.sole other (number?_seen belongs.low member about).1)
  rw [given, List.lookup_append]
  cases pane with
  | source => rw [others (by decide : Pane.target ≠ .source), Option.or_none]
  | target => rw [others (by decide : Pane.source ≠ .target), Option.none_or]

theorem Belongs.lookup_givenBy {pane : Pane} (belongs : Belongs run number pane)
    (alone : Pane → CatalogRun) (later : List CommanderEvent) :
    (run.givenBy alone later).lookup number =
      ((alone pane).answers (run.seenOf pane later)).lookup number := by
  induction later generalizing run alone with
  | nil => rfl
  | cons event rest ih =>
      rw [givenBy, seenOf, CatalogRun.answers_append, List.lookup_append, List.lookup_append,
        belongs.lookup_given, ih (belongs.step event)]
      rfl

theorem Awaited.belongs {pane : Pane} (awaited : Awaited run.work number pane)
    (low : number < run.work.fetches) : Belongs run number pane :=
  ⟨low, fun _ parked => Option.some.inj (parked.symm.trans awaited.1)⟩

theorem answers_cancel (run : CommanderRun) (alone : Pane → CatalogRun) (pane : Pane)
    (name : Nat) : (alone pane).answers (run.seen pane (.cancel name)) = [] := by
  simp only [seen]
  split
  · exact ((alone pane).after_cancels _).2.2
  · rfl

theorem Kept.find?_task (kept : Kept run alone) {task : CatalogTask}
    (member : task ∈ run.work.tasks) :
    run.work.tasks.find? (fun other => other.name = task.name) = some task := by
  cases search : run.work.tasks.find? fun other => other.name = task.name with
  | none => simpa using List.find?_eq_none.mp search task member
  | some other =>
      have same : other.name = task.name := by simpa using List.find?_some search
      rw [List.inj_on_of_nodup_map kept.named (List.mem_of_find?_eq_some search) member same]

theorem Kept.over_of_cancel (kept : Kept run alone) {task : CatalogTask}
    (member : task ∈ run.work.tasks) {pane : Pane} (own : number ∈ task.numbers)
    (awaited : Awaited run.work number pane) :
    (run.advance alone (.cancel task.name) pane).Over number := by
  have share : run.seen pane (.cancel task.name) = (due run.work pane task).map .cancel := by
    simp only [seen, kept.find?_task member]
  rw [advance, share]
  exact .of_cancels (mem_due.mpr ⟨own, awaited.1⟩) (kept.called _ (mem_of_lookup awaited.1))

theorem Kept.lookup_results_of_cancel (kept : Kept run alone) {task : CatalogTask}
    (member : task ∈ run.work.tasks) (rest : List CommanderEvent) :
    (run.after (.cancel task.name :: rest)).results.lookup task.name =
      (task.hear (run.givenBy alone (.cancel task.name :: rest))).result? := by
  have gone : task.name ∉ (run.tasksAt (.cancel task.name)).map CatalogTask.name := by
    simp [tasksAt, spared, begins]
  have still : task.name ∉ (run.step (.cancel task.name)).work.tasks.map CatalogTask.name :=
    fun named => gone (kept.names_step.subset named)
  have unreported : (run.after (.cancel task.name :: rest)).results.lookup task.name = none := by
    refine ((kept.step _).lookup_results_after ?_ still rest).trans ?_
    · exact Nat.lt_add_right _ (kept.begun task member)
    · rw [kept.lookup_results_of_unnamed gone]
      exact kept.unreported _ (Or.inl (List.mem_map_of_mem member))
  -- the tree never answers what it was asked for a part that is open now
  obtain ⟨number, waits⟩ :=
    CatalogTask.exists_open (kept.sized task member) (kept.unended task member)
  have own : number ∈ task.numbers := List.mem_map_of_mem (f := Prod.fst) waits
  obtain ⟨pane, awaited⟩ := kept.awaited task member number waits
  have belongs := awaited.belongs (kept.numbered task member number own)
  have past := kept.over_of_cancel member own awaited
  have unanswered : (run.givenBy alone (.cancel task.name :: rest)).lookup number = none := by
    rw [belongs.lookup_givenBy, seenOf, CatalogRun.answers_append, answers_cancel]
    exact past.lookup_answers _
  rw [unreported, CatalogTask.result?_of_open]
  exact (CatalogTask.mem_parts_hear _ _).mpr ⟨waits, unanswered⟩

theorem Kept.lookup_results_of_open (kept : Kept run alone) {task : CatalogTask}
    (member : task ∈ run.work.tasks) (later : List CommanderEvent) :
    (run.after later).results.lookup task.name =
      (task.hear (run.givenBy alone later)).result? := by
  -- a task goes on with fewer open parts, or it ends with an event or is dropped by it
  induction later generalizing run alone task with
  | nil =>
      rw [givenBy, CatalogTask.hear_nil, kept.unended task member]
      exact kept.unreported _ (Or.inl (List.mem_map_of_mem member))
  | cons event rest ih =>
      by_cases spared : task ∈ run.spared event
      · exact kept.lookup_results_of_tasksAt (List.mem_append_left _ spared) rest
          fun _ present => ih (kept.step event) present
      · have cancelled : event = .cancel task.name := by
          cases event with
          | cancel name =>
              by_contra different
              have other : task.name ≠ name := fun same => different (by rw [same])
              exact spared (List.mem_filter.mpr ⟨member, by simpa using other⟩)
          | load | start | reply | replaceRoots | collapse => exact absurd member spared
        rw [cancelled]
        exact kept.lookup_results_of_cancel member rest

theorem Kept.lookup_results_of_begins (kept : Kept run alone) {task : CatalogTask}
    (member : task ∈ run.begins event) (later : List CommanderEvent) :
    (run.after (event :: later)).results.lookup task.name =
      (task.hear (run.givenBy alone (event :: later))).result? :=
  kept.lookup_results_of_tasksAt (List.mem_append_right _ member) later
    fun _ present => (kept.step event).lookup_results_of_open present later

end CommanderRun

end CatalogBrowser
