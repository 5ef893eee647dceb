import CatalogBrowser.Proofs.Catalog.Marks
import CatalogBrowser.Proofs.Catalog.Projection

/-!
New roots begin a new run: what was started before leaves no trace in the tree and in the answers
to what is started later, however it ends.

The argument is a projection, which takes the old operations out of a session and moves it to
another generation.  Each later event then does the same before and after the projection, or
nothing at all.
-/

namespace CatalogBrowser

def CatalogEvent.number? : CatalogEvent → Option Nat
  | .start number _ | .reply number _ | .cancel number => some number
  | .replaceRoots _ | .collapse _ => none

def CatalogEvent.without (old : List Nat) (events : List CatalogEvent) : List CatalogEvent :=
  events.filter fun event => ∀ number ∈ event.number?, number ∉ old

/-- How a run begins whose first act is that an event replaces the roots. -/
def CatalogEvent.opening : CatalogEvent → List CatalogEvent
  | .reply number roots => [.start number .load, .reply number roots]
  | event => [event]

namespace CatalogRun

def answer? (run : CatalogRun) : CatalogEvent → Option (Nat × Finished)
  | .start number operation =>
    if number ∈ run.calls.map Prod.fst then none
    else match (run.session.start number operation).2 with
      | .finished finish => some (number, finish)
      | .waiting _ => none
  | .reply number reply => (run.session.finish number reply).2.map fun finish => (number, finish)
  | .cancel _ | .replaceRoots _ | .collapse _ => none

def answers (run : CatalogRun) : List CatalogEvent → List (Nat × Finished)
  | [] => []
  | event :: rest => (run.answer? event).toList ++ (run.step event).answers rest

/-- The roots were replaced after the operations with some numbers began and before all others. -/
structure Renewed (old : List Nat) (run : CatalogRun) : Prop where
  called : ∀ number ∈ old, number ∈ run.calls.map Prod.fst
  current_iff : ∀ number mark toggling, (number, .children mark toggling) ∈ run.session.waiting →
    (run.session.tree.generation = mark.generation ↔ number ∉ old)

/-- A run without old operations goes along with a run that has them. -/
structure Follows (old : List Nat) (generation : UInt64) (run fresh : CatalogRun) : Prop
    extends Renewed old run where
  session : fresh.session = run.session.without old generation
  calls : ∀ number, number ∉ old →
    (number ∈ fresh.calls.map Prod.fst ↔ number ∈ run.calls.map Prod.fst)

section

variable {old : List Nat} {generation : UInt64} {run fresh : CatalogRun}

theorem ne_ok_of_roots {number : Nat} {reply : Except Error (List CatalogNode)}
    (same : (run.step (.reply number reply)).replacements = run.replacements)
    (found : run.session.waiting.lookup number = some .roots) (nodes : List CatalogNode) :
    reply ≠ .ok nodes := by
  rintro rfl
  simp [step, bringsRoots, found, newRoots, close] at same

theorem step_reply (run : CatalogRun) (number : Nat) (reply : Except Error (List CatalogNode)) :
    (run.step (.reply number reply)).session = (run.session.finish number reply).1 ∧
      (run.step (.reply number reply)).calls = run.calls := by
  simp only [step]
  split <;> exact ⟨rfl, rfl⟩

theorem session_noteStart (run : CatalogRun) (number : Nat) (operation : CatalogOperation)
    (result : CatalogSession × Started) :
    (run.noteStart number operation result).session = result.1 := by
  obtain ⟨session, started⟩ := result
  cases started <;> rfl

theorem mem_calls_noteStart (run : CatalogRun) (number : Nat) (operation : CatalogOperation)
    (result : CatalogSession × Started) (other : Nat) :
    other ∈ (run.noteStart number operation result).calls.map Prod.fst ↔
      other ∈ run.calls.map Prod.fst ∨ other = number ∧ ∃ call, result.2 = .waiting call := by
  obtain ⟨session, started⟩ := result
  cases started <;> simp [noteStart]

theorem Renewed.step (renewed : Renewed old run) {event : CatalogEvent}
    (same : (run.step event).replacements = run.replacements) : Renewed old (run.step event) := by
  have transition := run.step_transition event
  generalize run.step event = next at same transition
  -- an operation that ends only takes its entry away
  have kept : ∀ {session : CatalogSession} {number : Nat},
      session.waiting = (run.session.forget number).waiting →
      session.tree.generation = run.session.tree.generation →
      Renewed old (run.close number session) := by
    intro session number waiting generation
    refine ⟨renewed.called, ?_⟩
    intro other mark toggling waits
    change (other, _) ∈ session.waiting at waits
    rw [waiting] at waits
    change session.tree.generation = _ ↔ _
    rw [generation]
    exact renewed.current_iff other mark toggling (List.mem_of_mem_filter waits)
  have longer : ∀ {calls : List (Nat × CatalogCall)}, ∀ number ∈ old,
      number ∈ (run.calls ++ calls).map Prod.fst := by
    intro calls number aged
    rw [List.map_append]
    exact List.mem_append_left _ (renewed.called number aged)
  cases transition with
  | unchanged => exact renewed
  | cached => exact ⟨renewed.called, renewed.current_iff⟩
  | collapsed id =>
      refine ⟨renewed.called, ?_⟩
      change ∀ _ _ _, _ ∈ run.session.waiting →
        ((run.session.tree.collapse id).1.generation = _ ↔ _)
      rw [CatalogTree.collapse_generation]
      exact renewed.current_iff
  | @loading number unused =>
      refine ⟨longer, ?_⟩
      intro other mark toggling waits
      have waits : (other, Waiting.children mark toggling) ∈ run.session.waiting := by
        simpa [CatalogSession.wait] using waits
      exact renewed.current_iff other mark toggling waits
  | @fetching number operation id node call toggling unused _ _ _ _ _ =>
      refine ⟨longer, ?_⟩
      intro other mark otherToggling waits
      simp only [CatalogSession.wait, List.mem_append, List.mem_singleton, Prod.mk.injEq,
        Waiting.children.injEq] at waits
      rcases waits with before | ⟨rfl, rfl, rfl⟩
      · exact renewed.current_iff other mark otherToggling before
      · have fresh : other ∉ old := fun aged => unused (renewed.called other aged)
        exact iff_of_true rfl fresh
  | missing found => exact kept (by rw [CatalogSession.forget_of_lookup_none found]) rfl
  | dropped => exact kept rfl rfl
  | @ended _ number mark toggling found =>
      refine kept rfl ?_
      exact CatalogTree.clearMark_generation run.session.tree mark
  | @listed number mark toggling listing nodes found current put =>
      have closed : Renewed old (run.close number { run.session.forget number with
          tree := { run.session.tree.clearMark mark with
            nodes, expanded := addNew run.session.tree.expanded mark.id } }) := by
        refine kept rfl ?_
        exact CatalogTree.clearMark_generation run.session.tree mark
      exact ⟨closed.called, closed.current_iff⟩
  | replaced | loaded => exact absurd same (Nat.succ_ne_self _)

theorem Renewed.step_old (renewed : Renewed old run) {event : CatalogEvent} {number : Nat}
    (about : event.number? = some number) (aged : number ∈ old)
    (same : (run.step event).replacements = run.replacements) (generation : UInt64) :
    (run.step event).session.without old generation = run.session.without old generation ∧
      (run.step event).calls = run.calls := by
  have stale : ∀ mark toggling,
      run.session.waiting.lookup number = some (.children mark toggling) →
      run.session.tree.generation ≠ mark.generation := by
    intro mark toggling found current
    have waits := mem_of_lookup found
    exact (renewed.current_iff number mark toggling waits).mp current aged
  cases event with
  | replaceRoots nodes | collapse id => simp [CatalogEvent.number?] at about
  | start other operation =>
      obtain rfl : other = number := Option.some.inj about
      have unchanged : run.step (.start other operation) = run :=
        if_pos (renewed.called other aged)
      rw [unchanged]
      exact ⟨rfl, rfl⟩
  | cancel other =>
      obtain rfl : other = number := Option.some.inj about
      exact ⟨CatalogSession.abandon_without_of_old generation aged stale, rfl⟩
  | reply other reply =>
      obtain rfl : other = number := Option.some.inj about
      obtain ⟨session, calls⟩ := run.step_reply other reply
      refine ⟨?_, calls⟩
      rw [session]
      exact CatalogSession.finish_without_of_old generation aged reply stale (ne_ok_of_roots same)

theorem number?_of_answer? {event : CatalogEvent} {answer : Nat × Finished}
    (answered : run.answer? event = some answer) : event.number? = some answer.1 := by
  cases event with
  | start number operation =>
      simp only [answer?] at answered
      split at answered
      · simp at answered
      · split at answered
        · obtain rfl := Option.some.inj answered
          rfl
        · simp at answered
  | reply number reply =>
      obtain ⟨finish, _, rfl⟩ := Option.map_eq_some_iff.mp answered
      rfl
  | cancel number | replaceRoots nodes | collapse id => simp [answer?] at answered

theorem Follows.step (follows : Follows old generation run fresh) {event : CatalogEvent}
    (other : ∀ number, event.number? = some number → number ∉ old)
    (same : (run.step event).replacements = run.replacements) :
    Follows old generation (run.step event) (fresh.step event) ∧
      fresh.answer? event = run.answer? event := by
  have renewed := follows.toRenewed.step same
  have current : ∀ {number}, number ∉ old → ∀ mark toggling,
      run.session.waiting.lookup number = some (.children mark toggling) →
      run.session.tree.generation = mark.generation := by
    intro number young mark toggling found
    exact (follows.current_iff number mark toggling (mem_of_lookup found)).mpr young
  cases event with
  | replaceRoots nodes => exact absurd same (Nat.succ_ne_self _)
  | collapse id =>
      refine ⟨{ renewed with session := ?_, calls := follows.calls }, rfl⟩
      change (fresh.session.collapse id).1 = (run.session.collapse id).1.without old generation
      rw [follows.session, CatalogSession.collapse_without]
  | cancel number =>
      have young := other number rfl
      refine ⟨{ renewed with session := ?_, calls := follows.calls }, rfl⟩
      change fresh.session.abandon number = (run.session.abandon number).without old generation
      rw [follows.session, CatalogSession.abandon_without generation young (current young)]
  | reply number reply =>
      have young := other number rfl
      have ended : fresh.session.finish number reply = _ := follows.session ▸
        CatalogSession.finish_without generation young reply (current young) (ne_ok_of_roots same)
      obtain ⟨session, calls⟩ := run.step_reply number reply
      obtain ⟨freshSession, freshCalls⟩ := fresh.step_reply number reply
      refine ⟨{ renewed with session := ?_, calls := ?_ }, ?_⟩
      · rw [session, freshSession, ended]
      · rw [calls, freshCalls]
        exact follows.calls
      · simp only [answer?, ended]
  | start number operation =>
      have young := other number rfl
      have begun : fresh.session.start number operation = _ := follows.session ▸
        CatalogSession.start_without generation young operation
      have usedIff := follows.calls number young
      by_cases used : number ∈ run.calls.map Prod.fst
      · have unchanged : run.step (.start number operation) = run := if_pos used
        have freshUnchanged : fresh.step (.start number operation) = fresh :=
          if_pos (usedIff.mpr used)
        rw [unchanged, freshUnchanged]
        exact ⟨follows, by simp only [answer?, used, usedIff.mpr used, if_true]⟩
      · have unused : number ∉ fresh.calls.map Prod.fst := fun again => used (usedIff.mp again)
        have starts : run.step (.start number operation) = run.noteStart number operation
          (run.session.start number operation) := if_neg used
        have freshStarts : fresh.step (.start number operation) = fresh.noteStart number operation
          (fresh.session.start number operation) := if_neg unused
        rw [starts] at renewed
        rw [starts, freshStarts]
        refine ⟨{ renewed with session := ?_, calls := ?_ }, ?_⟩
        · rw [session_noteStart, session_noteStart, begun]
        · intro otherNumber otherYoung
          rw [mem_calls_noteStart, mem_calls_noteStart, begun, follows.calls otherNumber otherYoung]
        · simp only [answer?, used, unused, if_false, begun]

theorem Follows.after (follows : Follows old generation run fresh) {events : List CatalogEvent}
    (same : (run.after events).replacements = run.replacements) :
    Follows old generation (run.after events) (fresh.after (CatalogEvent.without old events)) ∧
      fresh.answers (CatalogEvent.without old events) =
        (run.answers events).filter fun answer => answer.1 ∉ old := by
  -- the run goes through all events, the other one skips those about old operations
  induction events generalizing run fresh with
  | nil => exact ⟨follows, rfl⟩
  | cons event rest ih =>
      have first := replacements_le_step run event
      have later := replacements_le_after (run.step event) rest
      change ((run.step event).after rest).replacements = run.replacements at same
      have kept : (run.step event).replacements = run.replacements := by omega
      have restKept : ((run.step event).after rest).replacements =
          (run.step event).replacements := by omega
      rw [answers, List.filter_append]
      by_cases young : ∀ number ∈ event.number?, number ∉ old
      · have goesOn : CatalogEvent.without old (event :: rest) =
            event :: CatalogEvent.without old rest := List.filter_cons_of_pos (by simpa using young)
        obtain ⟨next, answer⟩ := follows.step young kept
        obtain ⟨ends, others⟩ := ih next restKept
        have shown : (run.answer? event).toList.filter (fun answer => answer.1 ∉ old) =
            (run.answer? event).toList := by
          rw [List.filter_eq_self]
          intro given member
          have answered : run.answer? event = some given := by simpa using member
          simpa using young given.1 (number?_of_answer? answered)
        rw [goesOn, answers, answer, others, shown]
        exact ⟨ends, rfl⟩
      · have skipped : CatalogEvent.without old (event :: rest) = CatalogEvent.without old rest :=
          List.filter_cons_of_neg (by simpa using young)
        simp only [not_forall, not_not] at young
        obtain ⟨number, about, aged⟩ := young
        obtain ⟨session, calls⟩ := follows.step_old about aged kept generation
        have next : Follows old generation (run.step event) fresh :=
          { follows.toRenewed.step kept with
            session := follows.session.trans session.symm
            calls := fun other fresh => calls ▸ follows.calls other fresh }
        have hidden : (run.answer? event).toList.filter (fun answer => answer.1 ∉ old) = [] := by
          rw [List.filter_eq_nil_iff]
          intro given member
          have answered : run.answer? event = some given := by simpa using member
          obtain rfl := Option.some.inj (about.symm.trans (number?_of_answer? answered))
          simpa using aged
        obtain ⟨ends, others⟩ := ih next restKept
        rw [skipped, hidden, others]
        exact ⟨ends, rfl⟩

/-! The replacement itself -/

theorem name_step (run : CatalogRun) (event : CatalogEvent) :
    (run.step event).session.tree.name = run.session.tree.name := by
  have transition := run.step_transition event
  generalize run.step event = next at transition
  cases transition with
  | unchanged | cached | loading | fetching | missing | dropped | replaced | loaded => rfl
  | collapsed id => exact CatalogTree.collapse_name _ _
  | ended | listed => exact CatalogTree.clearMark_name _ _

theorem name_of (name : String) (events : List CatalogEvent) :
    (of name events).session.tree.name = name := by
  induction events using List.reverseRecOn with
  | nil => rfl
  | append_singleton events event ih => rw [of_concat, name_step, ih]

theorem of_opening_load (name : String) (number : Nat) (nodes : List CatalogNode) :
    let run := of name (CatalogEvent.reply number (.ok nodes)).opening
    run.session = { tree := { name, nodes, generation := 1 } } ∧
      run.calls = [(number, .catalogs)] := by
  intro run
  let loading := (opened name).step (.start number .load)
  have starts : loading = { opened name with
      session := (opened name).session.wait number .roots
      calls := [(number, .catalogs)] } := rfl
  have ends : run = loading.step (.reply number (.ok nodes)) := rfl
  obtain ⟨session, calls⟩ := step_reply loading number (.ok nodes)
  rw [ends, session, calls, starts]
  refine ⟨?_, rfl⟩
  simp [opened, CatalogSession.wait, CatalogSession.finish, CatalogSession.forget,
    CatalogTree.finishLoad, CatalogTree.replaceRoots]

theorem replaceRoots_of_replacements {event : CatalogEvent}
    (replaces : (run.step event).replacements = run.replacements + 1) :
    ∃ nodes, (run.step event).session.tree = run.session.tree.replaceRoots nodes ∧
      (∀ entry ∈ (run.step event).session.waiting, entry ∈ run.session.waiting) ∧
      (∀ fetch ∈ (run.step event).fetches, fetch ∈ run.fetches) ∧
      (run.step event).calls = run.calls ∧
      ∀ name, (of name event.opening).session = { tree := { name, nodes, generation := 1 } } ∧
        ∀ number ∈ (of name event.opening).calls.map Prod.fst,
          ∃ operation, (number, operation) ∈ run.session.waiting := by
  have transition := run.step_transition event
  generalize run.step event = next at replaces transition
  cases transition with
  | unchanged | cached | collapsed | loading | fetching | missing | dropped | ended | listed =>
      exact absurd replaces.symm (Nat.succ_ne_self _)
  | replaced nodes =>
      refine ⟨nodes, rfl, fun _ => id, fun _ => id, rfl, fun name => ⟨rfl, ?_⟩⟩
      intro number member
      exact absurd member List.not_mem_nil
  | @loaded number nodes found =>
      refine ⟨nodes, rfl, fun _ => List.mem_of_mem_filter, fun _ => List.mem_of_mem_filter, rfl, ?_⟩
      intro name
      obtain ⟨session, calls⟩ := of_opening_load name number nodes
      refine ⟨session, ?_⟩
      intro other member
      rw [calls] at member
      obtain rfl : other = number := by simpa using member
      exact ⟨.roots, mem_of_lookup found⟩

theorem follows_opening {name : String} {before : List CatalogEvent} {event : CatalogEvent}
    (replaces : ((of name before).step event).replacements = (of name before).replacements + 1)
    (few : ((of name before).step event).replacements < UInt64.size) :
    Follows ((of name before).calls.map Prod.fst) 1 ((of name before).step event)
      (of name event.opening) := by
  have tracks := tracks_of name before (by omega)
  have nextFew : (of name (before ++ [event])).replacements < UInt64.size := by rwa [of_concat]
  have nextTracks := tracks_of name (before ++ [event]) nextFew
  rw [of_concat] at nextTracks
  obtain ⟨nodes, tree, waiting, fetches, calls, opening⟩ := replaceRoots_of_replacements replaces
  obtain ⟨session, openingCalls⟩ := opening name
  have aged : ∀ entry ∈ ((of name before).step event).session.waiting,
      entry.1 ∈ (of name before).calls.map Prod.fst :=
    fun entry waits => tracks.called entry (waiting entry waits)
  refine { called := ?_, current_iff := ?_, session := ?_, calls := ?_ }
  · intro number member
    rwa [calls]
  · intro number mark toggling waits
    refine iff_of_false ?_ (not_not.mpr (aged _ waits))
    -- whatever still waits was begun in an earlier epoch
    obtain ⟨fetch, member, _, rfl⟩ :=
      nextTracks.fetch_of_lookup (lookup_of_mem_nodup nextTracks.numbered waits)
    rw [nextTracks.current_iff (recent_of_few few) member]
    have epoch := tracks.epochs fetch (fetches fetch member)
    omega
  · have gone : ((of name before).step event).session.waiting.filter
        (fun entry => entry.1 ∉ (of name before).calls.map Prod.fst) = [] := by
      rw [List.filter_eq_nil_iff]
      intro entry waits
      simpa using aged entry waits
    rw [session, CatalogSession.without, gone, tree]
    simp only [CatalogTree.replaceRoots, CatalogTree.inGeneration, name_of, List.map_nil]
  · intro number young
    rw [calls]
    refine iff_of_false ?_ young
    intro member
    obtain ⟨operation, waits⟩ := openingCalls number member
    exact young (tracks.called _ waits)

end

/-- After the last replacement of the roots a run cannot be told from one that begins with it. -/
theorem older_operations_leave_no_trace (name : String) (before later : List CatalogEvent)
    (event : CatalogEvent)
    (replaces : ((of name before).step event).replacements = (of name before).replacements + 1)
    (last : (of name (before ++ event :: later)).replacements =
      (of name before).replacements + 1)
    (few : (of name (before ++ event :: later)).replacements < UInt64.size) :
    let old := (of name before).calls.map Prod.fst
    let run := of name (before ++ event :: later)
    let fresh := of name (event.opening ++ CatalogEvent.without old later)
    fresh.session.tree.nodes = run.session.tree.nodes ∧
    fresh.session.tree.expanded = run.session.tree.expanded ∧
    fresh.session.tree.loading = run.session.tree.loading ∧
    fresh.session.tree.visibleRows = run.session.tree.visibleRows ∧
    (of name event.opening).answers (CatalogEvent.without old later) =
      ((of name (before ++ [event])).answers later).filter fun answer => answer.1 ∉ old := by
  intro old run fresh
  have parts : run = ((of name before).step event).after later := of_split ..
  have freshParts : fresh = (of name event.opening).after (CatalogEvent.without old later) :=
    List.foldl_append ..
  have still : (((of name before).step event).after later).replacements =
      ((of name before).step event).replacements := by
    rw [replaces, ← last, of_split]
  have begins := @follows_opening name before event replaces (by omega)
  obtain ⟨follows, answers⟩ := begins.after still
  have tree : fresh.session.tree = run.session.tree.inGeneration 1 := by
    rw [freshParts, parts, follows.session]
    rfl
  rw [tree, of_concat]
  exact ⟨rfl, rfl, rfl, run.session.tree.visibleRows_inGeneration 1, answers⟩

theorem older_operations_leave_no_trace_beside_newer :
    let roots : List CatalogNode := [.new "main" "main" .catalog]
    let before : List CatalogEvent := [.replaceRoots roots, .start 0 (.expand "main")]
    let later : List CatalogEvent :=
      [.start 1 (.expand "main"), .reply 0 (.ok [.new "main.raw" "raw" .schema]),
        .reply 1 (.ok [.new "main.gold" "gold" .schema])]
    let run := of "source" (before ++ .replaceRoots roots :: later)
    let fresh := of "source" [.replaceRoots roots, .start 1 (.expand "main"),
      .reply 1 (.ok [.new "main.gold" "gold" .schema])]
    ((of "source" before).step (.replaceRoots roots)).replacements =
      (of "source" before).replacements + 1 ∧
    run.replacements = (of "source" before).replacements + 1 ∧
    run.replacements < UInt64.size ∧
    fresh.session.tree.nodes = run.session.tree.nodes ∧
    fresh.session.tree.visibleRows = run.session.tree.visibleRows ∧
    run.session.tree.visibleRows.map TreeRow.id = ["main", "main.gold"] := by
  intro roots before later run fresh
  have whole : run = of "source" (before ++ .replaceRoots roots :: later) := rfl
  have erased : fresh = of "source" ((CatalogEvent.replaceRoots roots).opening ++
      CatalogEvent.without ((of "source" before).calls.map Prod.fst) later) :=
    congrArg (of "source") rfl
  rw [whole, erased]
  have replaces : ((of "source" before).step (.replaceRoots roots)).replacements =
      (of "source" before).replacements + 1 := by decide
  have last : (of "source" (before ++ .replaceRoots roots :: later)).replacements =
      (of "source" before).replacements + 1 := by decide
  have few : (of "source" (before ++ .replaceRoots roots :: later)).replacements <
      UInt64.size := by decide
  obtain ⟨nodes, _, _, rows, _⟩ := older_operations_leave_no_trace "source" before later
    (.replaceRoots roots) replaces last few
  exact ⟨replaces, last, few, nodes, rows, by decide⟩

end CatalogRun

end CatalogBrowser
