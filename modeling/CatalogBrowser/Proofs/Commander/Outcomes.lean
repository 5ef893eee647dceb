import CatalogBrowser.Proofs.Commander.Results

/-!
What two panes show and answer: each what a tree of its own shows and answers, and what comes of
loading both at once.
-/

namespace CatalogBrowser

def loadAnswer (reply : Except Error (List CatalogNode)) : Finished where
  result := reply.map fun nodes => .count nodes.length
  notes :=
    match reply with
    | .ok _ => []
    | .error error => [.ofError "Failed to load catalogs" error]

theorem CatalogTree.finishLoad_eq (tree : CatalogTree)
    (reply : Except Error (List CatalogNode)) :
    (⟨(tree.finishLoad reply).2.1.map .count, (tree.finishLoad reply).2.2⟩ : Finished) =
      loadAnswer reply := by
  cases reply <;> rfl

/-- How an event ends a call of a task: with a reply, or because the task is dropped. -/
def CommanderEvent.ends? (task number : Nat) :
    CommanderEvent → Option (Option (Except Error (List CatalogNode)))
  | .reply other result => if other = number then some (some result) else none
  | .cancel other => if other = task then some none else none
  | .load | .start _ _ | .replaceRoots _ _ | .collapse _ _ => none

/-- How some events end a call of a task.  Only the first of them that does counts. -/
def CommanderEvent.fate (task number : Nat) (events : List CommanderEvent) :
    Option (Option (Except Error (List CatalogNode))) :=
  events.findSome? (ends? task number)

namespace CommanderRun

section

variable {run : CommanderRun} {alone : Pane → CatalogRun} {task number : Nat} {pane : Pane}

structure Loading (run : CommanderRun) (task number : Nat) (pane : Pane) : Prop where
  part : ∃ loads ∈ run.work.tasks, loads.name = task ∧ (number, none) ∈ loads.parts
  parked : run.work.parked.lookup number = some pane
  waits : (run.work.session pane).waiting.lookup number = some .roots

theorem Loading.low (loading : Loading run task number pane) (kept : Kept run alone) :
    number < run.work.fetches := by
  obtain ⟨loads, member, _, part⟩ := loading.part
  exact kept.numbered loads member number (List.mem_map_of_mem (f := Prod.fst) part)

theorem Loading.awaited (loading : Loading run task number pane) :
    Awaited run.work number pane :=
  ⟨loading.parked, by rw [loading.waits]; rfl⟩

theorem Loading.belongs (loading : Loading run task number pane) (kept : Kept run alone) :
    Belongs run number pane :=
  loading.awaited.belongs (loading.low kept)

theorem Loading.untouched (loading : Loading run task number pane) (kept : Kept run alone)
    {event : CommanderEvent} (goesOn : event.ends? task number = none) :
    ¬ run.Touches number event := by
  obtain ⟨loads, member, rfl, part⟩ := loading.part
  intro touches
  cases event with
  | load | start | replaceRoots | collapse => exact touches
  | reply other reply => simp [CommanderEvent.ends?, show other = number from touches] at goesOn
  | cancel name =>
      obtain ⟨other, among, rfl, own⟩ := touches
      have same := kept.apart loads member other among number
        (List.mem_map_of_mem (f := Prod.fst) part) own
      simp [CommanderEvent.ends?, same] at goesOn

theorem Loading.step (loading : Loading run task number pane) (kept : Kept run alone)
    {event : CommanderEvent} (goesOn : event.ends? task number = none) :
    Loading (run.step event) task number pane ∧
      ((alone pane).answers (run.seen pane event)).lookup number = none := by
  have untouched := loading.untouched kept goesOn
  have low := loading.low kept
  have silent : ((alone pane).answers (run.seen pane event)).lookup number = none :=
    CatalogRun.lookup_answers_eq_none fun share member about =>
      untouched (number?_seen low member about).2
  refine ⟨⟨?_, ?_, ?_⟩, silent⟩
  · obtain ⟨loads, member, named, part⟩ := loading.part
    have spared : loads ∈ run.spared event := by
      cases event with
      | cancel name =>
          have different : loads.name ≠ name := by
            rintro rfl
            simp [CommanderEvent.ends?, named] at goesOn
          exact List.mem_filter.mpr ⟨member, by simpa using different⟩
      | load | start | reply | replaceRoots | collapse => exact member
    have waits : (number, none) ∈ (loads.hear (run.given alone event)).parts := by
      refine (CatalogTask.mem_parts_hear _ _).mpr ⟨part, ?_⟩
      rw [(loading.belongs kept).lookup_given, silent]
    exact ⟨_, kept.mem_tasks_step.mpr ⟨⟨loads, List.mem_append_left _ spared, rfl⟩,
      CatalogTask.result?_of_open waits⟩, named, waits⟩
  · refine (lookup_parked_act low ?_).trans loading.parked
    rintro reply rfl
    exact untouched rfl
  · exact (kept.lookup_waiting_act low untouched pane).trans loading.waits

theorem Loading.over_of_cancel (loading : Loading run task number pane) (kept : Kept run alone) :
    (run.advance alone (.cancel task) pane).Over number := by
  obtain ⟨loads, member, rfl, part⟩ := loading.part
  exact kept.over_of_cancel member (List.mem_map_of_mem (f := Prod.fst) part) loading.awaited

theorem Loading.over_of_reply (loading : Loading run task number pane) (kept : Kept run alone)
    (reply : Except Error (List CatalogNode)) :
    (run.advance alone (.reply number reply) pane).Over number := by
  rw [advance, seenBy_reply loading.parked reply pane, if_pos rfl]
  exact .of_reply (kept.called _ (mem_of_lookup loading.parked))

theorem Loading.answers_reply (loading : Loading run task number pane) (kept : Kept run alone)
    (reply : Except Error (List CatalogNode)) :
    (alone pane).answers (run.seen pane (.reply number reply)) = [(number, loadAnswer reply)] := by
  rw [seenBy_reply loading.parked reply pane, if_pos rfl, CatalogRun.answers, CatalogRun.answers,
    CatalogRun.answer?, kept.session pane, CatalogSession.finish_of_roots loading.waits,
    CatalogTree.finishLoad_eq]
  rfl

theorem eq_of_ends? {event : CommanderEvent}
    {ended : Option (Except Error (List CatalogNode))}
    (ends : event.ends? task number = some ended) :
    event = match ended with
      | some reply => .reply number reply
      | none => .cancel task := by
  cases event with
  | load | start | replaceRoots | collapse => simp [CommanderEvent.ends?] at ends
  | reply other reply | cancel other =>
      simp only [CommanderEvent.ends?, Option.ite_none_right_eq_some, Option.some.injEq] at ends
      obtain ⟨rfl, rfl⟩ := ends
      rfl

theorem Loading.over_of_ends (loading : Loading run task number pane) (kept : Kept run alone)
    {event : CommanderEvent} {ended : Option (Except Error (List CatalogNode))}
    (ends : event.ends? task number = some ended) :
    (run.advance alone event pane).Over number ∧
      ((alone pane).answers (run.seen pane event)).lookup number = ended.map loadAnswer := by
  rw [eq_of_ends? ends]
  cases ended with
  | none =>
      rw [answers_cancel]
      exact ⟨loading.over_of_cancel kept, rfl⟩
  | some reply =>
      rw [loading.answers_reply kept]
      exact ⟨loading.over_of_reply kept reply, by simp⟩

/-- The answer of the tree that is loaded is what the fate of its call makes it. -/
theorem Loading.lookup_answers (loading : Loading run task number pane) (kept : Kept run alone)
    (later : List CommanderEvent) :
    ((alone pane).answers (run.seenOf pane later)).lookup number =
      (CommanderEvent.fate task number later).join.map loadAnswer := by
  -- the first event that ends the call decides, and after it nothing waits under the number
  induction later generalizing run alone with
  | nil => rfl
  | cons event rest ih =>
      rw [seenOf, CatalogRun.answers_append, List.lookup_append, CommanderEvent.fate,
        List.findSome?_cons]
      cases ends : event.ends? task number with
      | none =>
          obtain ⟨next, silent⟩ := loading.step kept ends
          rw [silent, Option.none_or]
          exact ih next (kept.step event)
      | some ended =>
          obtain ⟨past, answer⟩ := loading.over_of_ends kept ends
          have afterwards := past.lookup_answers ((run.step event).seenOf pane rest)
          rw [advance] at afterwards
          rw [answer, afterwards, Option.or_none]
          rfl

theorem Loading.after (loading : Loading run task number pane) (kept : Kept run alone)
    (later : List CommanderEvent) :
    if CommanderEvent.fate task number later = none then
      Loading (run.after later) task number pane
    else ((alone pane).after (run.seenOf pane later)).Over number := by
  induction later generalizing run alone with
  | nil => exact loading
  | cons event rest ih =>
      rw [seenOf, CatalogRun.after_append, CommanderEvent.fate, List.findSome?_cons]
      cases ends : event.ends? task number with
      | none => exact ih (loading.step kept ends).1 (kept.step event)
      | some ended => exact (loading.over_of_ends kept ends).1.after _

theorem Belongs.after (belongs : Belongs run number pane) (later : List CommanderEvent) :
    Belongs (run.after later) number pane := by
  induction later generalizing run with
  | nil => exact belongs
  | cons event rest ih => exact ih (belongs.step event)

theorem Loading.reply (loading : Loading run task number pane) (kept : Kept run alone)
    (reply : Except Error (List CatalogNode)) :
    (∀ other, ((run.step (.reply number reply)).work.session other).tree =
      if other = pane then ((run.work.session other).tree.finishLoad reply).1
      else (run.work.session other).tree) ∧
    (run.step (.reply number reply)).notes = run.notes ++ (loadAnswer reply).notes := by
  have given := kept.given_reply loading.parked reply
  have acts : run.act (.reply number reply) = _ := run.work.finish_of_parked loading.parked
    (CatalogSession.finish_of_roots loading.waits reply)
  rw [CatalogSession.finish_of_roots loading.waits reply] at given
  refine ⟨?_, ?_⟩
  · intro other
    change ((run.act (.reply number reply)).session other).tree = _
    rw [acts]
    change ((run.work.setSession pane _).session other).tree = _
    rw [CatalogWork.session_setSession]
    split
    · next own => rw [own]
    · rfl
  · rw [kept.notes_step, given, CatalogTree.finishLoad_eq]
    simp

theorem Kept.reply_of_over (kept : Kept run alone) (belongs : Belongs run number pane)
    (past : (alone pane).Over number) (reply : Except Error (List CatalogNode)) :
    (∀ other, (run.step (.reply number reply)).work.session other = run.work.session other) ∧
      (run.step (.reply number reply)).notes = run.notes := by
  have missing := past.missing
  rw [kept.session pane] at missing
  change (∀ other, (run.act (.reply number reply)).session other = _) ∧ run.notes ++ _ = _
  rw [act]
  cases parked : run.work.parked.lookup number with
  | none =>
      rw [run.work.finish_of_missing parked, kept.quiet]
      exact ⟨fun _ => rfl, List.append_nil _⟩
  | some owner =>
      obtain rfl := belongs.sole owner parked
      have ended := CatalogSession.finish_of_lookup_none missing reply
      rw [run.work.finish_of_parked parked ended, kept.quiet]
      refine ⟨fun other => ?_, List.append_nil _⟩
      change (run.work.setSession owner _).session other = _
      rw [CatalogWork.session_setSession]
      split
      · next own => rw [own]
      · rfl

theorem Kept.loading_load (kept : Kept run alone) (pane : Pane) :
    Loading (run.step .load) run.begun (run.loadNumber pane) pane := by
  obtain ⟨_, source, target⟩ := awaited_load kept.toMirrors kept.calls
  have task (number : Nat)
      (part : number = run.work.fetches ∨ number = run.work.fetches + 1) :
      ∃ loads ∈ (run.step .load).work.tasks, loads.name = run.begun ∧
        (number, none) ∈ loads.parts := by
    refine ⟨⟨run.begun, [(run.work.fetches, none), (run.work.fetches + 1, none)]⟩, ?_, rfl, ?_⟩
    · refine kept.mem_tasks_step.mpr ⟨⟨_, List.mem_append_right _ (List.mem_singleton_self _), ?_⟩,
        rfl⟩
      rw [kept.given_load, CatalogTask.hear_nil]
    · simpa using part
  cases pane with
  | source => exact ⟨task _ (Or.inl rfl), source.1, source.2⟩
  | target => exact ⟨task _ (Or.inr rfl), target.1, target.2⟩

theorem Kept.lookup_givenBy_start (kept : Kept run alone) (pane : Pane)
    (operation : CatalogOperation) (later : List CommanderEvent) :
    (run.givenBy alone (.start pane operation :: later)).lookup run.work.fetches =
      ((alone pane).answers (run.seenOf pane (.start pane operation :: later))).lookup
        run.work.fetches := by
  have first : run.given alone (.start pane operation) =
      (alone pane).answers (run.seen pane (.start pane operation)) := by
    rw [(seenBy_start run pane operation).given, seenBy_start run pane operation pane,
      if_pos rfl, CatalogRun.answers, CatalogRun.answers, List.append_nil]
  -- an operation that ends at once answers itself: its number may then be used again
  rw [givenBy, seenOf, CatalogRun.answers_append, List.lookup_append, List.lookup_append, ← first]
  cases unanswered : (run.given alone (.start pane operation)).lookup run.work.fetches with
  | some finish => rfl
  | none =>
      obtain ⟨fetches, awaited⟩ := awaited_start kept.toMirrors unanswered
      have low : run.work.fetches < (run.act (.start pane operation)).fetches := by omega
      have belongs : Belongs (run.step (.start pane operation)) run.work.fetches pane :=
        Awaited.belongs awaited low
      rw [belongs.lookup_givenBy]
      rfl

theorem Kept.lookup_results_start (kept : Kept run alone) (pane : Pane)
    (operation : CatalogOperation) (later : List CommanderEvent) :
    (run.after (.start pane operation :: later)).results.lookup run.begun =
      (((alone pane).answers (run.seenOf pane (.start pane operation :: later))).lookup
        run.work.fetches).map fun finish => finish.result.map some := by
  have new : ⟨run.begun, [(run.work.fetches, none)]⟩ ∈ run.begins (.start pane operation) :=
    List.mem_singleton_self _
  have outcome := kept.lookup_results_of_begins new later
  rw [← kept.lookup_givenBy_start pane operation later]
  refine outcome.trans ?_
  simp only [CatalogTask.hear, List.map_cons, List.map_nil, Option.none_or]
  cases (run.givenBy alone (.start pane operation :: later)).lookup run.work.fetches <;> rfl

theorem Kept.lookup_answers_load (kept : Kept run alone) (pane : Pane)
    (later : List CommanderEvent) :
    (run.givenBy alone (.load :: later)).lookup (run.loadNumber pane) =
        (CommanderEvent.fate run.begun (run.loadNumber pane) later).join.map loadAnswer ∧
      ((alone pane).answers (run.seenOf pane (.load :: later))).lookup (run.loadNumber pane) =
        (CommanderEvent.fate run.begun (run.loadNumber pane) later).join.map loadAnswer := by
  have loading := kept.loading_load pane
  have answers := loading.lookup_answers (kept.step .load) later
  have silent : (alone pane).answers (run.seen pane .load) = [] := by
    have quiet := kept.given_load
    rw [given, List.append_eq_nil_iff] at quiet
    cases pane with
    | source => exact quiet.1
    | target => exact quiet.2
  refine ⟨?_, ?_⟩
  · rw [givenBy, kept.given_load, List.nil_append,
      (loading.belongs (kept.step .load)).lookup_givenBy, answers]
  · rw [seenOf, CatalogRun.answers_append, silent, List.nil_append]
    exact answers

/-- The result of loading both panes: there is one once both calls are answered, and the failure
of the source comes before that of the target. -/
theorem Kept.lookup_results_load (kept : Kept run alone) (later : List CommanderEvent) :
    (run.after (.load :: later)).results.lookup run.begun =
      match (CommanderEvent.fate run.begun (run.loadNumber .source) later).join,
        (CommanderEvent.fate run.begun (run.loadNumber .target) later).join with
      | some (.error error), some _ => some (.error error)
      | some (.ok _), some (.error error) => some (.error error)
      | some (.ok _), some (.ok _) => some (.ok none)
      | _, _ => none := by
  have new : ⟨run.begun, [(run.work.fetches, none), (run.work.fetches + 1, none)]⟩ ∈
      run.begins .load := List.mem_singleton_self _
  have outcome := kept.lookup_results_of_begins new later
  have source := (kept.lookup_answers_load .source later).1
  have target := (kept.lookup_answers_load .target later).1
  simp only [loadNumber] at source target
  refine outcome.trans ?_
  simp only [CatalogTask.hear, List.map_cons, List.map_nil, Option.none_or, source, target,
    loadNumber]
  -- without both replies the task goes on, and with them four cases are left
  cases (CommanderEvent.fate run.begun run.work.fetches later).join with
  | none => rfl
  | some sourceReply =>
      cases (CommanderEvent.fate run.begun (run.work.fetches + 1) later).join with
      | none => cases sourceReply <;> rfl
      | some targetReply => cases sourceReply <;> cases targetReply <;> rfl

theorem Kept.step_reply_load (kept : Kept run alone) (later : List CommanderEvent) (pane : Pane)
    (reply : Except Error (List CatalogNode)) :
    let fate := CommanderEvent.fate run.begun (run.loadNumber pane) later
    let now := run.after (.load :: later)
    let next := now.step (.reply (run.loadNumber pane) reply)
    (∀ other, (next.work.session other).tree =
      match reply with
      | .ok nodes =>
        if other = pane ∧ fate = none then (now.work.session other).tree.replaceRoots nodes
        else (now.work.session other).tree
      | .error _ => (now.work.session other).tree) ∧
    next.notes = now.notes ++
      match reply with
      | .ok _ => []
      | .error error => if fate = none then [.ofError "Failed to load catalogs" error] else [] := by
  intro fate now next
  have began := kept.loading_load pane
  have loading := began.after (kept.step .load) later
  have keptNow := (kept.step .load).after later
  change if fate = none then Loading now run.begun (run.loadNumber pane) pane else _ at loading
  split at loading
  · next pending =>
    obtain ⟨trees, notes⟩ := loading.reply keptNow reply
    refine ⟨fun other => ?_, ?_⟩
    · rw [trees other]
      cases reply <;> simp [pending, CatalogTree.finishLoad]
    · rw [notes]
      cases reply <;> simp [pending, loadAnswer]
  · next ended =>
    have belongs := (began.belongs (kept.step .load)).after later
    obtain ⟨sessions, notes⟩ : (∀ other, next.work.session other = now.work.session other) ∧
        next.notes = now.notes := keptNow.reply_of_over belongs loading reply
    refine ⟨fun other => ?_, ?_⟩
    · rw [sessions other]
      cases reply <;> simp [ended]
    · rw [notes]
      cases reply <;> simp [ended]

end

example :
    let run := of [.load, .reply 1 (.ok [.new "main" "main" .catalog]), .reply 0 (.error .json)]
    (run.work.session .target).tree.visibleRows.map TreeRow.id = ["main"] ∧
    (run.work.session .source).tree.nodes = [] ∧
    run.results = [(0, .error .json)] ∧
    run.notes = [.ofError "Failed to load catalogs" .json] := by
  decide

end CommanderRun

end CatalogBrowser
