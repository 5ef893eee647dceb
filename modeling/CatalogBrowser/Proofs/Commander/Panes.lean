import CatalogBrowser.Proofs.Commander.Run

/-!
Each pane goes along with a tree of its own: an event changes the pane as it changes the tree, the
tasks get the answers that the trees give, and the trees raise all notifications.
-/

namespace CatalogBrowser

namespace CommanderRun

def spared (run : CommanderRun) : CommanderEvent → List CatalogTask
  | .cancel name => run.work.tasks.filter fun task => task.name ≠ name
  | .load | .start _ _ | .reply _ _ | .replaceRoots _ _ | .collapse _ _ => run.work.tasks

def advance (run : CommanderRun) (alone : Pane → CatalogRun) (event : CommanderEvent)
    (pane : Pane) : CatalogRun :=
  (alone pane).after (run.seen pane event)

/-- The answers that the two trees give to an event. -/
def given (run : CommanderRun) (alone : Pane → CatalogRun) (event : CommanderEvent) :
    List (Nat × Finished) :=
  (alone .source).answers (run.seen .source event) ++
    (alone .target).answers (run.seen .target event)

/-- Each pane stands where a tree stands that uses the numbers of the calls made so far. -/
structure Mirrors (work : CatalogWork) (alone : Pane → CatalogRun) : Prop where
  session : ∀ pane, (alone pane).session = work.session pane
  below : ∀ pane, ∀ number ∈ (alone pane).calls.map Prod.fst, number < work.fetches
  called : ∀ entry ∈ work.parked, entry.1 ∈ (alone entry.2).calls.map Prod.fst

/-- An event does the same to the panes as to the trees, and what these answer is what is
reported. -/
structure Relays (run : CommanderRun) (alone : Pane → CatalogRun) (event : CommanderEvent) :
    Prop where
  mirrors : Mirrors (run.act event) (run.advance alone event)
  tasks : (run.act event).tasks =
    (run.spared event ++ run.begins event).map fun task => task.hear (run.given alone event)
  notes : (run.act event).notes =
    run.work.notes ++ (run.given alone event).flatMap fun answer => answer.2.notes

section

variable {run : CommanderRun} {alone : Pane → CatalogRun}

/-! Events that only one pane gets to see -/

def SeenBy (run : CommanderRun) (event : CommanderEvent) (owner : Pane) (share : CatalogEvent) :
    Prop :=
  ∀ pane, run.seen pane event = if pane = owner then [share] else []

theorem SeenBy.given {event : CommanderEvent} {owner : Pane} {share : CatalogEvent}
    (seen : SeenBy run event owner share) :
    run.given alone event = ((alone owner).answer? share).toList := by
  rw [CommanderRun.given, seen .source, seen .target]
  cases owner <;> simp [CatalogRun.answers]

theorem SeenBy.mirrors {event : CommanderEvent} {owner : Pane} {share : CatalogEvent}
    (seen : SeenBy run event owner share) (mirrors : Mirrors run.work alone)
    {next : CatalogWork}
    (session : ∀ pane, next.session pane =
      if pane = owner then ((alone owner).step share).session else run.work.session pane)
    (fetches : run.work.fetches ≤ next.fetches)
    (below : ∀ number ∈ ((alone owner).step share).calls.map Prod.fst, number < next.fetches)
    (called : ∀ entry ∈ next.parked, entry ∈ run.work.parked ∨
      entry.2 = owner ∧ entry.1 ∈ ((alone owner).step share).calls.map Prod.fst) :
    Mirrors next (run.advance alone event) := by
  have advance (pane : Pane) : run.advance alone event pane =
      if pane = owner then (alone owner).step share else alone pane := by
    rw [CommanderRun.advance, seen pane]
    split
    · next own =>
      rw [own]
      rfl
    · rfl
  refine ⟨?_, ?_, ?_⟩
  · intro pane
    rw [advance pane, session pane]
    split
    · rfl
    · exact mirrors.session pane
  · intro pane number
    rw [advance pane]
    split
    · exact below number
    · exact fun member => Nat.lt_of_lt_of_le (mirrors.below pane number member) fetches
  · intro entry member
    rw [advance entry.2]
    rcases called entry member with before | ⟨own, added⟩
    · split
      · next own =>
        rw [← own]
        exact CatalogRun.mem_calls_step (mirrors.called entry before)
      · exact mirrors.called entry before
    · rw [if_pos own]
      exact added

/-! The events, one by one -/

theorem Mirrors.lookup_parked_of_fresh {work : CatalogWork} (mirrors : Mirrors work alone)
    {number : Nat} (fresh : work.fetches ≤ number) : work.parked.lookup number = none := by
  rw [Option.eq_none_iff_forall_ne_some]
  intro pane parked
  have earlier := mirrors.below pane number (mirrors.called _ (mem_of_lookup parked))
  exact absurd earlier (Nat.not_lt.mpr fresh)

theorem Mirrors.step_start {work : CatalogWork} (mirrors : Mirrors work alone) (pane : Pane)
    {number : Nat} (fresh : work.fetches ≤ number) (operation : CatalogOperation) :
    (alone pane).step (.start number operation) =
        (alone pane).noteStart number operation ((work.session pane).start number operation) ∧
      (alone pane).answer? (.start number operation) =
        match ((work.session pane).start number operation).2 with
        | .finished finish => some (number, finish)
        | .waiting _ => none := by
  have unused : number ∉ (alone pane).calls.map Prod.fst :=
    fun used => absurd (mirrors.below pane number used) (Nat.not_lt.mpr fresh)
  rw [← mirrors.session pane]
  exact ⟨if_neg unused, if_neg unused⟩

theorem seenBy_start (run : CommanderRun) (owner : Pane) (operation : CatalogOperation) :
    SeenBy run (.start owner operation) owner (.start run.work.fetches operation) := by
  intro pane
  simp only [seen, eq_comm]

theorem Mirrors.given_start (mirrors : Mirrors run.work alone) (owner : Pane)
    (operation : CatalogOperation) :
    run.given alone (.start owner operation) =
      match ((run.work.session owner).start run.work.fetches operation).2 with
      | .finished finish => [(run.work.fetches, finish)]
      | .waiting _ => [] := by
  rw [(seenBy_start run owner operation).given,
    (mirrors.step_start owner (Nat.le_refl _) operation).2]
  split <;> rfl

theorem Mirrors.relays_start (mirrors : Mirrors run.work alone) (owner : Pane)
    (operation : CatalogOperation) : Relays run alone (.start owner operation) := by
  have seen := seenBy_start run owner operation
  -- no tree has used the number yet, so that it starts the operation, too
  have steps := (mirrors.step_start owner (Nat.le_refl _) operation).1
  have given := mirrors.given_start owner operation
  have calls (number : Nat) := CatalogRun.mem_calls_noteStart (alone owner) run.work.fetches
    operation ((run.work.session owner).start run.work.fetches operation) number
  cases begun : (run.work.session owner).start run.work.fetches operation with
  | mk session started =>
      rw [begun] at steps given calls
      cases started with
      | finished finish =>
          have acts : run.act (.start owner operation) = _ :=
            run.work.start_of_finished run.begun begun
          refine ⟨?_, ?_, ?_⟩
          · rw [acts]
            refine seen.mirrors mirrors ?_ (Nat.le_refl _) ?_ ?_
            · intro pane
              rw [steps, CatalogRun.session_noteStart]
              exact run.work.session_setSession owner pane session
            · intro number member
              rw [steps] at member
              exact mirrors.below owner number member
            · exact fun entry member => Or.inl member
          · rw [given, acts]
            rfl
          · rw [given, acts]
            simp
      | waiting call =>
          have acts : run.act (.start owner operation) = _ :=
            run.work.start_of_waiting run.begun begun
          refine ⟨?_, ?_, ?_⟩
          · rw [acts]
            refine seen.mirrors mirrors ?_ (Nat.le_succ _) ?_ ?_
            · intro pane
              rw [steps, CatalogRun.session_noteStart]
              exact run.work.session_setSession owner pane session
            · intro number member
              rw [steps, calls] at member
              rcases member with before | ⟨rfl, _⟩
              · exact Nat.lt_succ_of_lt (mirrors.below owner number before)
              · exact Nat.lt_succ_self _
            · intro entry member
              rcases List.mem_append.mp member with before | added
              · exact Or.inl before
              · obtain rfl := List.mem_singleton.mp added
                rw [steps, calls]
                exact Or.inr ⟨rfl, Or.inr ⟨rfl, call, rfl⟩⟩
          · rw [given, acts]
            simp [spared, begins]
          · rw [given, acts]
            simp [CatalogWork.setSession]

theorem Mirrors.given_load (mirrors : Mirrors run.work alone) : run.given alone .load = [] := by
  have source := (mirrors.step_start .source (Nat.le_refl _) .load).2
  have target := (mirrors.step_start .target (Nat.le_succ _) .load).2
  simp [given, seen, loadNumber, CatalogRun.answers, source, target, CatalogSession.start]

theorem Mirrors.relays_load (mirrors : Mirrors run.work alone) : Relays run alone .load := by
  have acts : run.act .load = _ := run.work.start_both run.begun
  have source := (mirrors.step_start .source (Nat.le_refl _) .load).1
  have target := (mirrors.step_start .target (Nat.le_succ _) .load).1
  have silent := mirrors.given_load
  refine ⟨?_, ?_, ?_⟩
  · change run.advance alone .load .source = _ at source
    change run.advance alone .load .target = _ at target
    rw [acts]
    refine ⟨?_, ?_, ?_⟩
    · intro pane
      cases pane with
      | source =>
          rw [source, CatalogRun.session_noteStart]
          rfl
      | target =>
          rw [target, CatalogRun.session_noteStart]
          rfl
    · intro pane number member
      change number < run.work.fetches + 2
      cases pane with
      | source =>
          rw [source, CatalogRun.mem_calls_noteStart] at member
          rcases member with before | ⟨rfl, _⟩
          · have earlier := mirrors.below .source number before
            omega
          · omega
      | target =>
          rw [target, CatalogRun.mem_calls_noteStart] at member
          rcases member with before | ⟨rfl, _⟩
          · have earlier := mirrors.below .target number before
            omega
          · omega
    · intro entry member
      rcases List.mem_append.mp member with before | added
      · exact CatalogRun.mem_calls_after (mirrors.called entry before)
      · simp only [List.mem_cons, List.not_mem_nil, or_false] at added
        rcases added with rfl | rfl
        · rw [source, CatalogRun.mem_calls_noteStart]
          exact Or.inr ⟨rfl, .catalogs, rfl⟩
        · rw [target, CatalogRun.mem_calls_noteStart]
          exact Or.inr ⟨rfl, .catalogs, rfl⟩
  · rw [silent, acts]
    simp [spared, begins]
  · rw [silent, acts]
    simp

theorem Mirrors.relays_nothing (mirrors : Mirrors run.work alone) {event : CommanderEvent}
    (unseen : ∀ pane, run.seen pane event = []) (acts : run.act event = run.work)
    (tasks : run.spared event ++ run.begins event = run.work.tasks) :
    Relays run alone event := by
  have silent : run.given alone event = [] := by
    simp [CommanderRun.given, unseen, CatalogRun.answers]
  have still : run.advance alone event = alone := by
    funext pane
    rw [CommanderRun.advance, unseen]
    rfl
  refine ⟨?_, ?_, ?_⟩
  · rwa [acts, still]
  · rw [silent, acts, tasks]
    simp
  · rw [silent, acts]
    simp

theorem seenBy_reply {number : Nat} {owner : Pane}
    (parked : run.work.parked.lookup number = some owner)
    (reply : Except Error (List CatalogNode)) :
    SeenBy run (.reply number reply) owner (.reply number reply) := by
  intro pane
  simp only [seen, parked, Option.some.injEq, eq_comm]

theorem Mirrors.given_reply (mirrors : Mirrors run.work alone) {number : Nat} {owner : Pane}
    (parked : run.work.parked.lookup number = some owner)
    (reply : Except Error (List CatalogNode)) :
    run.given alone (.reply number reply) =
      ((run.work.session owner).finish number reply).2.toList.map
        fun finish => (number, finish) := by
  rw [(seenBy_reply parked reply).given, CatalogRun.answer?, mirrors.session owner]
  cases ((run.work.session owner).finish number reply).2 <;> rfl

theorem Mirrors.relays_reply (mirrors : Mirrors run.work alone) (number : Nat)
    (reply : Except Error (List CatalogNode)) : Relays run alone (.reply number reply) := by
  cases parked : run.work.parked.lookup number with
  | none =>
      refine mirrors.relays_nothing ?_ (run.work.finish_of_missing parked reply) ?_
      · intro pane
        simp [seen, parked]
      · simp [spared, begins]
  | some owner =>
      have seen := seenBy_reply parked reply
      have given := mirrors.given_reply parked reply
      obtain ⟨steps, calls⟩ := (alone owner).step_reply number reply
      rw [mirrors.session owner] at steps
      cases ended : (run.work.session owner).finish number reply with
      | mk session answer =>
          rw [ended] at steps given
          have acts : run.act (.reply number reply) = _ :=
            run.work.finish_of_parked parked ended
          refine ⟨?_, ?_, ?_⟩
          · rw [acts]
            refine seen.mirrors mirrors ?_ (Nat.le_refl _) ?_ ?_
            · intro pane
              rw [steps]
              exact run.work.session_setSession owner pane session
            · rw [calls]
              exact mirrors.below owner
            · exact fun entry member => Or.inl (List.mem_of_mem_filter member)
          · rw [given, acts]
            simp [spared, begins]
          · rw [given, acts]
            cases answer <;> simp

theorem Mirrors.relays_cancel (mirrors : Mirrors run.work alone) (name : Nat) :
    Relays run alone (.cancel name) := by
  cases found : run.work.tasks.find? fun task => task.name = name with
  | none =>
      refine mirrors.relays_nothing ?_ (run.work.cancel_of_missing found) ?_
      · intro pane
        simp only [seen, found]
      · have others : ∀ task ∈ run.work.tasks, task.name ≠ name := by
          simpa [List.find?_eq_none] using found
        rw [spared, begins, List.append_nil, List.filter_eq_self]
        simpa using others
  | some task =>
      have share (pane : Pane) : run.seen pane (.cancel name) =
          (due run.work pane task).map .cancel := by
        simp only [seen, found]
      have dropped (pane : Pane) := (alone pane).after_cancels (due run.work pane task)
      have silent : run.given alone (.cancel name) = [] := by
        simp only [CommanderRun.given, share, (dropped _).2.2, List.append_nil]
      have advance (pane : Pane) : run.advance alone (.cancel name) pane =
          (alone pane).after ((due run.work pane task).map .cancel) := by
        rw [CommanderRun.advance, share]
      obtain ⟨commander, acts, sessions⟩ := run.work.cancel_of_found found
      change run.act (.cancel name) = _ at acts
      refine ⟨?_, ?_, ?_⟩
      · rw [acts]
        refine ⟨?_, ?_, ?_⟩
        · intro pane
          rw [advance, (dropped pane).1, mirrors.session]
          exact (sessions pane).symm
        · intro pane
          rw [advance, (dropped pane).2.1]
          exact mirrors.below pane
        · intro entry member
          rw [advance, (dropped entry.2).2.1]
          exact mirrors.called entry member
      · rw [silent, acts]
        simp [spared, begins]
      · rw [silent, acts]
        simp

theorem Mirrors.relays_aside (mirrors : Mirrors run.work alone) {event : CommanderEvent}
    {owner : Pane} {share : CatalogEvent} (seen : SeenBy run event owner share)
    (acts : run.act event = run.work.setSession owner ((alone owner).step share).session)
    (calls : ((alone owner).step share).calls = (alone owner).calls)
    (silent : (alone owner).answer? share = none)
    (tasks : run.spared event ++ run.begins event = run.work.tasks) :
    Relays run alone event := by
  refine ⟨?_, ?_, ?_⟩
  · rw [acts]
    refine seen.mirrors mirrors ?_ (Nat.le_refl _) ?_ ?_
    · exact fun pane => run.work.session_setSession owner pane _
    · rw [calls]
      exact mirrors.below owner
    · exact fun entry member => Or.inl member
  · rw [seen.given, silent, acts, tasks]
    simp [CatalogWork.setSession]
  · rw [seen.given, silent, acts]
    simp [CatalogWork.setSession]

theorem Mirrors.relays (mirrors : Mirrors run.work alone) (event : CommanderEvent) :
    Relays run alone event := by
  cases event with
  | load => exact mirrors.relays_load
  | start pane operation => exact mirrors.relays_start pane operation
  | reply number reply => exact mirrors.relays_reply number reply
  | cancel name => exact mirrors.relays_cancel name
  | replaceRoots owner nodes =>
      have own : SeenBy run (.replaceRoots owner nodes) owner (.replaceRoots nodes) := by
        intro pane
        simp only [seen, eq_comm]
      refine mirrors.relays_aside own ?_ rfl rfl (List.append_nil _)
      rw [act, ← mirrors.session owner]
      rfl
  | collapse owner id =>
      have own : SeenBy run (.collapse owner id) owner (.collapse id) := by
        intro pane
        simp only [seen, eq_comm]
      refine mirrors.relays_aside own ?_ rfl rfl (List.append_nil _)
      rw [act, ← mirrors.session owner]
      rfl

/-! Whole runs -/

theorem Mirrors.step (mirrors : Mirrors run.work alone) (event : CommanderEvent) :
    Mirrors (run.step event).work (run.advance alone event) :=
  have acted := (mirrors.relays event).mirrors
  ⟨acted.session, acted.below, acted.called⟩

end

end CommanderRun

end CatalogBrowser
