import CatalogBrowser.Proofs.Catalog.Renewal

/-!
When an operation of a run answers: only what happens under its number can end it, and an
operation that has ended or was dropped never answers again.
-/

namespace CatalogBrowser

theorem lookup_filter_ne {β : Type} (entries : List (Nat × β)) (key other : Nat) :
    (entries.filter fun entry => entry.1 ≠ key).lookup other =
      if other = key then none else entries.lookup other := by
  induction entries with
  | nil => simp
  | cons entry rest ih =>
      obtain ⟨number, item⟩ := entry
      by_cases taken : number = key
      · rw [List.filter_cons_of_neg (by simpa using taken), ih]
        split
        · rfl
        · next different => exact (lookup_cons_of_ne (taken ▸ different)).symm
      · rw [List.filter_cons_of_pos (by simpa using taken)]
        by_cases here : other = number
        · rw [if_neg (here ▸ taken), here, List.lookup_cons_self, List.lookup_cons_self]
        · rw [lookup_cons_of_ne here, lookup_cons_of_ne here, ih]

namespace CatalogSession

section

variable (session : CatalogSession) (number : Nat)

theorem lookup_forget (other : Nat) : (session.forget number).waiting.lookup other =
    if other = number then none else session.waiting.lookup other :=
  lookup_filter_ne session.waiting number other

theorem start_waits (operation : CatalogOperation) :
    (∃ finish, (session.start number operation).2 = .finished finish ∧
        (session.start number operation).1.waiting = session.waiting) ∨
      ∃ call waits, (session.start number operation).2 = .waiting call ∧
        (session.start number operation).1.waiting = session.waiting ++ [(number, waits)] := by
  have expands (id : String) (toggling : Bool) :
      (∃ finish, (session.startExpand number id toggling).2 = .finished finish ∧
          (session.startExpand number id toggling).1.waiting = session.waiting) ∨
        ∃ call waits, (session.startExpand number id toggling).2 = .waiting call ∧
          (session.startExpand number id toggling).1.waiting =
            session.waiting ++ [(number, waits)] := by
    unfold startExpand
    split
    · exact Or.inl ⟨_, rfl, rfl⟩
    · exact Or.inr ⟨_, _, rfl, rfl⟩
    · exact Or.inl ⟨_, rfl, rfl⟩
    · exact Or.inl ⟨_, rfl, rfl⟩
  cases operation with
  | load => exact Or.inr ⟨.catalogs, .roots, rfl, rfl⟩
  | expand id => exact expands id false
  | toggle id =>
      simp only [start]
      split
      · exact Or.inl ⟨_, rfl, rfl⟩
      · exact expands id true

theorem lookup_start_of_ne {other : Nat} (operation : CatalogOperation)
    (different : other ≠ number) :
    (session.start number operation).1.waiting.lookup other = session.waiting.lookup other := by
  rcases session.start_waits number operation with ⟨_, _, waiting⟩ | ⟨_, waits, _, waiting⟩
  · rw [waiting]
  · rw [waiting, List.lookup_append, lookup_cons_of_ne different]
    simp

theorem waiting_finish (reply : Except Error (List CatalogNode)) :
    (session.finish number reply).1.waiting = (session.forget number).waiting := by
  unfold finish
  cases found : session.waiting.lookup number with
  | none => rw [forget_of_lookup_none found]
  | some waits => cases waits <;> rfl

theorem waiting_abandon :
    (session.abandon number).waiting = (session.forget number).waiting := by
  unfold abandon
  cases session.waiting.lookup number with
  | none => rfl
  | some waits => cases waits <;> rfl

theorem finish_isSome (reply : Except Error (List CatalogNode)) :
    (session.finish number reply).2.isSome = (session.waiting.lookup number).isSome := by
  unfold finish
  cases session.waiting.lookup number with
  | none => rfl
  | some waits => cases waits <;> rfl

end

theorem finish_of_lookup_none {session : CatalogSession} {number : Nat}
    (missing : session.waiting.lookup number = none) (reply : Except Error (List CatalogNode)) :
    session.finish number reply = (session, none) := by
  simp only [finish, missing]

theorem finish_of_roots {session : CatalogSession} {number : Nat}
    (waits : session.waiting.lookup number = some .roots)
    (reply : Except Error (List CatalogNode)) :
    session.finish number reply =
      ({ session.forget number with tree := (session.tree.finishLoad reply).1 },
        some ⟨(session.tree.finishLoad reply).2.1.map .count,
          (session.tree.finishLoad reply).2.2⟩) := by
  simp only [finish, waits]

end CatalogSession

namespace CatalogRun

variable {run : CatalogRun} {number : Nat}

theorem after_append (run : CatalogRun) (first second : List CatalogEvent) :
    run.after (first ++ second) = (run.after first).after second := List.foldl_append ..

theorem answers_append (run : CatalogRun) (first second : List CatalogEvent) :
    run.answers (first ++ second) = run.answers first ++ (run.after first).answers second := by
  induction first generalizing run with
  | nil => rfl
  | cons event rest ih =>
      simp only [List.cons_append, answers, ih, List.append_assoc]
      rfl

theorem after_cancels (run : CatalogRun) (numbers : List Nat) :
    (run.after (numbers.map .cancel)).session =
        numbers.foldl CatalogSession.abandon run.session ∧
      (run.after (numbers.map .cancel)).calls = run.calls ∧
      run.answers (numbers.map .cancel) = [] := by
  induction numbers generalizing run with
  | nil => exact ⟨rfl, rfl, rfl⟩
  | cons number rest ih => exact ih (run.step (.cancel number))

/-! Events about other operations -/

theorem lookup_waiting_step {event : CatalogEvent} (other : event.number? ≠ some number) :
    (run.step event).session.waiting.lookup number = run.session.waiting.lookup number := by
  cases event with
  | start begun operation =>
      have different : number ≠ begun := fun same => other (congrArg some same.symm)
      simp only [step]
      split
      · rfl
      · rw [session_noteStart, CatalogSession.lookup_start_of_ne _ _ _ different]
  | reply replied reply =>
      have different : number ≠ replied := fun same => other (congrArg some same.symm)
      rw [(run.step_reply replied reply).1, CatalogSession.waiting_finish,
        CatalogSession.lookup_forget, if_neg different]
  | cancel dropped =>
      have different : number ≠ dropped := fun same => other (congrArg some same.symm)
      change (run.session.abandon dropped).waiting.lookup number = _
      rw [CatalogSession.waiting_abandon, CatalogSession.lookup_forget, if_neg different]
  | replaceRoots nodes | collapse id => rfl

theorem lookup_waiting_after {events : List CatalogEvent}
    (others : ∀ event ∈ events, event.number? ≠ some number) :
    (run.after events).session.waiting.lookup number = run.session.waiting.lookup number := by
  induction events generalizing run with
  | nil => rfl
  | cons event rest ih =>
      obtain ⟨other, others⟩ := List.forall_mem_cons.mp others
      exact (ih others).trans (lookup_waiting_step other)

theorem lookup_answers_eq_none {events : List CatalogEvent}
    (others : ∀ event ∈ events, event.number? ≠ some number) :
    (run.answers events).lookup number = none := by
  induction events generalizing run with
  | nil => rfl
  | cons event rest ih =>
      obtain ⟨other, others⟩ := List.forall_mem_cons.mp others
      rw [answers, List.lookup_append, ih others, Option.or_none, List.lookup_eq_none_iff]
      intro answer member
      have answered : run.answer? event = some answer := by simpa using member
      have different : number ≠ answer.1 :=
        fun same => other (same ▸ number?_of_answer? answered)
      simpa using different

/-! Operations that are over -/

/-- A call was made under a number, and nothing waits for its reply any more. -/
structure Over (run : CatalogRun) (number : Nat) : Prop where
  called : number ∈ run.calls.map Prod.fst
  missing : run.session.waiting.lookup number = none

theorem mem_calls_step {event : CatalogEvent} (called : number ∈ run.calls.map Prod.fst) :
    number ∈ (run.step event).calls.map Prod.fst := by
  cases event with
  | start begun operation =>
      simp only [step]
      split
      · exact called
      · exact (mem_calls_noteStart ..).mpr (Or.inl called)
  | reply replied reply => rwa [(run.step_reply replied reply).2]
  | cancel dropped | replaceRoots nodes | collapse id => exact called

theorem mem_calls_after {events : List CatalogEvent} (called : number ∈ run.calls.map Prod.fst) :
    number ∈ (run.after events).calls.map Prod.fst := by
  induction events generalizing run with
  | nil => exact called
  | cons event rest ih => exact ih (mem_calls_step called)

def WaitsForCalls (run : CatalogRun) : Prop :=
  ∀ number, run.session.waiting.lookup number ≠ none → number ∈ run.calls.map Prod.fst

theorem WaitsForCalls.step (waits : WaitsForCalls run) (event : CatalogEvent) :
    WaitsForCalls (run.step event) := by
  intro number found
  by_cases about : event.number? = some number
  · cases event with
    | start begun operation =>
        obtain rfl : begun = number := Option.some.inj about
        by_cases used : begun ∈ run.calls.map Prod.fst
        · exact mem_calls_step used
        · have steps : run.step (.start begun operation) = run.noteStart begun operation
            (run.session.start begun operation) := if_neg used
          rw [steps, session_noteStart] at found
          rw [steps, mem_calls_noteStart]
          rcases run.session.start_waits begun operation with
            ⟨_, _, waiting⟩ | ⟨call, _, called, _⟩
          · rw [waiting] at found
            exact Or.inl (waits begun found)
          · exact Or.inr ⟨rfl, call, called⟩
    | reply replied reply =>
        obtain rfl : replied = number := Option.some.inj about
        rw [(run.step_reply replied reply).1, CatalogSession.waiting_finish,
          CatalogSession.lookup_forget, if_pos rfl] at found
        exact absurd rfl found
    | cancel dropped =>
        obtain rfl : dropped = number := Option.some.inj about
        change (run.session.abandon dropped).waiting.lookup dropped ≠ none at found
        rw [CatalogSession.waiting_abandon, CatalogSession.lookup_forget, if_pos rfl] at found
        exact absurd rfl found
    | replaceRoots nodes | collapse id => simp [CatalogEvent.number?] at about
  · rw [lookup_waiting_step about] at found
    exact mem_calls_step (waits number found)

theorem WaitsForCalls.after (waits : WaitsForCalls run) (events : List CatalogEvent) :
    WaitsForCalls (run.after events) := by
  induction events generalizing run with
  | nil => exact waits
  | cons event rest ih => exact ih (waits.step event)

theorem Over.step_self (past : Over run number) {event : CatalogEvent}
    (about : event.number? = some number) :
    (run.step event).session = run.session ∧ run.answer? event = none := by
  cases event with
  | start begun operation =>
      obtain rfl : begun = number := Option.some.inj about
      simp [step, answer?, past.called]
  | reply replied reply =>
      obtain rfl : replied = number := Option.some.inj about
      rw [(run.step_reply replied reply).1, answer?,
        CatalogSession.finish_of_lookup_none past.missing]
      exact ⟨rfl, rfl⟩
  | cancel dropped =>
      obtain rfl : dropped = number := Option.some.inj about
      refine ⟨?_, rfl⟩
      change run.session.abandon dropped = run.session
      rw [CatalogSession.abandon, past.missing]
      exact CatalogSession.forget_of_lookup_none past.missing
  | replaceRoots nodes | collapse id => simp [CatalogEvent.number?] at about

theorem Over.step (past : Over run number) (event : CatalogEvent) :
    Over (run.step event) number where
  called := mem_calls_step past.called
  missing := by
    by_cases about : event.number? = some number
    · rw [(past.step_self about).1, past.missing]
    · rw [lookup_waiting_step about, past.missing]

theorem Over.after (past : Over run number) (events : List CatalogEvent) :
    Over (run.after events) number := by
  induction events generalizing run with
  | nil => exact past
  | cons event rest ih => exact ih (past.step event)

theorem Over.lookup_answers (past : Over run number) (events : List CatalogEvent) :
    (run.answers events).lookup number = none := by
  induction events generalizing run with
  | nil => rfl
  | cons event rest ih =>
      rw [answers, List.lookup_append, ih (past.step event), Option.or_none]
      by_cases about : event.number? = some number
      · rw [(past.step_self about).2]
        rfl
      · have first : (run.answers [event]).lookup number = none :=
          lookup_answers_eq_none (by simpa using about)
        rwa [answers, answers, List.append_nil] at first

theorem Over.of_reply {reply : Except Error (List CatalogNode)}
    (called : number ∈ run.calls.map Prod.fst) : Over (run.step (.reply number reply)) number where
  called := mem_calls_step called
  missing := by
    rw [(run.step_reply number reply).1, CatalogSession.waiting_finish,
      CatalogSession.lookup_forget, if_pos rfl]

theorem Over.of_cancel (called : number ∈ run.calls.map Prod.fst) :
    Over (run.step (.cancel number)) number where
  called := mem_calls_step called
  missing := by
    change (run.session.abandon number).waiting.lookup number = none
    rw [CatalogSession.waiting_abandon, CatalogSession.lookup_forget, if_pos rfl]

theorem Over.of_cancels {numbers : List Nat} (member : number ∈ numbers)
    (called : number ∈ run.calls.map Prod.fst) : Over (run.after (numbers.map .cancel)) number := by
  induction numbers generalizing run with
  | nil => simp at member
  | cons first rest ih =>
      rcases List.mem_cons.mp member with rfl | later
      · exact (of_cancel called).after (rest.map .cancel)
      · exact ih later (mem_calls_step called)

end CatalogRun

end CatalogBrowser
