import CatalogBrowser.Proofs.Catalog.Run

/-!
What an event can do to a run, said once: every later argument about runs goes by these cases.
-/

namespace CatalogBrowser

namespace CatalogSession

theorem forget_of_lookup_none {session : CatalogSession} {number : Nat}
    (missing : session.waiting.lookup number = none) : session.forget number = session := by
  have kept : session.waiting.filter (fun entry => entry.1 ≠ number) = session.waiting := by
    rw [List.filter_eq_self]
    intro entry member
    have different : number ≠ entry.1 := by
      simpa using List.lookup_eq_none_iff.mp missing entry member
    simpa using different.symm
  unfold forget
  rw [kept]

theorem startExpand_of_error (session : CatalogSession) (number : Nat) {id : String}
    (toggling : Bool) {mark : FetchMark} {error : Error}
    (fails : (session.tree.startExpand id).2 = .fetching mark (.error error)) :
    session.startExpand number id toggling =
      (session, .finished
        ⟨.error error, [.ofError ("Failed to load children of " ++ id) error]⟩) := by
  unfold startExpand
  have begins := session.tree.startExpand_begins id
  generalize session.tree.startExpand id = begun at begins fails
  cases begins with
  | loading | unknown | expanded | leaf | cached | fetching => simp at fails
  | failing loading =>
      obtain ⟨rfl, same⟩ := ExpandStart.fetching.inj fails
      obtain rfl := Except.error.inj same
      have cleared : ({ session.tree with
          loading := session.tree.loading ++ [id] } : CatalogTree).clearMark
            ⟨id, session.tree.generation⟩ = session.tree := by
        simp only [CatalogTree.clearMark, if_true, List.filter_append,
          filter_ne_of_notMem loading]
        simp
      simp only [finishExpand, CatalogTree.finishExpand, cleared]
      rfl

end CatalogSession

namespace CatalogRun

inductive Transition (run : CatalogRun) : CatalogEvent → CatalogRun → Prop
  | unchanged {event} : Transition run event run
  | cached {number operation id node children} :
      CatalogOperation.target? operation = some id →
      id ∉ run.session.tree.loading → id ∉ run.session.tree.expanded →
      run.session.tree.find? id = some node → node.nodeType.isLeaf = false →
      node.children = some children →
      Transition run (.start number operation)
        { run with session := { run.session with
          tree := { run.session.tree with expanded := run.session.tree.expanded ++ [id] } } }
  | collapsed {event} (id : String) :
      Transition run event { run with session := (run.session.collapse id).1 }
  | loading {number} : number ∉ run.calls.map Prod.fst →
      Transition run (.start number .load)
        { run with
          session := run.session.wait number .roots
          calls := run.calls ++ [(number, .catalogs)] }
  | fetching {number operation id node call} (toggling : Bool) :
      number ∉ run.calls.map Prod.fst → CatalogOperation.target? operation = some id →
      id ∉ run.session.tree.loading → id ∉ run.session.tree.expanded →
      run.session.tree.Listable id node →
      CatalogTree.listingCall id node.nodeType = .ok (some call) →
      Transition run (.start number operation)
        { run with
          session := ({ run.session with
            tree := { run.session.tree with loading := run.session.tree.loading ++ [id] }
            }).wait number (.children ⟨id, run.session.tree.generation⟩ toggling)
          calls := run.calls ++ [(number, call)]
          fetches := run.fetches ++ [{ number, id, call, epoch := run.replacements }] }
  | missing {event number} : run.session.waiting.lookup number = none →
      Transition run event (run.close number run.session)
  | dropped {event number} : run.session.waiting.lookup number = some .roots →
      Transition run event (run.close number (run.session.forget number))
  | ended {event number mark toggling} :
      run.session.waiting.lookup number = some (.children mark toggling) →
      Transition run event (run.close number
        { run.session.forget number with tree := run.session.tree.clearMark mark })
  | listed {number mark toggling listing nodes} :
      run.session.waiting.lookup number = some (.children mark toggling) →
      run.session.tree.generation = mark.generation →
      CatalogNode.putChildren run.session.tree.nodes mark.id listing = (nodes, true) →
      Transition run (.reply number (.ok listing))
        { run.close number { run.session.forget number with
            tree := { run.session.tree.clearMark mark with
              nodes, expanded := addNew run.session.tree.expanded mark.id } } with
          listed := run.listed ++ [mark.id] }
  | replaced (nodes : List CatalogNode) :
      Transition run (.replaceRoots nodes)
        { run with session := run.session.replaceRoots nodes }.newRoots
  | loaded {number nodes} : run.session.waiting.lookup number = some .roots →
      Transition run (.reply number (.ok nodes))
        (run.close number { run.session.forget number with
          tree := run.session.tree.replaceRoots nodes }).newRoots

theorem startExpand_transition (run : CatalogRun) {number : Nat} {operation : CatalogOperation}
    {id : String} (toggling : Bool) (unused : number ∉ run.calls.map Prod.fst)
    (target : operation.target? = some id) :
    Transition run (.start number operation)
      (run.noteStart number operation (run.session.startExpand number id toggling)) := by
  have begins := run.session.tree.startExpand_begins id
  generalize begun : run.session.tree.startExpand id = result at begins
  cases begins with
  | loading | unknown | expanded | leaf =>
      simp only [CatalogSession.startExpand, begun]
      exact .unchanged
  | cached loading expanded found inner children =>
      simp only [CatalogSession.startExpand, begun]
      exact .cached target loading expanded found inner children
  | fetching loading expanded listable listing =>
      simp only [CatalogSession.startExpand, begun, noteStart, target, Option.map_some,
        Option.toList_some]
      exact .fetching toggling unused target loading expanded listable listing
  | failing =>
      rw [run.session.startExpand_of_error number toggling (congrArg Prod.snd begun)]
      exact .unchanged

theorem step_of_listed {run : CatalogRun} {number : Nat} {mark : FetchMark} {toggling : Bool}
    {listing nodes : List CatalogNode}
    (found : run.session.waiting.lookup number = some (.children mark toggling))
    (current : run.session.tree.generation = mark.generation)
    (put : CatalogNode.putChildren run.session.tree.nodes mark.id listing = (nodes, true)) :
    run.step (.reply number (.ok listing)) =
      { run.close number { run.session.forget number with
          tree := { run.session.tree.clearMark mark with
            nodes, expanded := addNew run.session.tree.expanded mark.id } } with
        listed := run.listed ++ [mark.id] } := by
  have taken : run.session.tree.takeListing mark listing =
      ({ run.session.tree.clearMark mark with
        nodes, expanded := addNew run.session.tree.expanded mark.id },
        .loaded listing.length) := by
    simp [CatalogTree.takeListing, current, put]
  simp only [step, bringsRoots, listedBy?, outcome?, CatalogSession.finish, found,
    Bool.false_eq_true, if_false, CatalogSession.finishExpand, CatalogTree.finishExpand,
    CatalogSession.forget, taken, Option.toList_some]

theorem reply_transition (run : CatalogRun) (number : Nat)
    (reply : Except Error (List CatalogNode)) :
    Transition run (.reply number reply) (run.step (.reply number reply)) := by
  cases found : run.session.waiting.lookup number with
  | none =>
      simp only [step, bringsRoots, listedBy?, CatalogSession.finish, found, Bool.false_eq_true,
        if_false, Option.toList_none, List.append_nil]
      exact .missing found
  | some waiting =>
      cases waiting with
      | roots =>
          cases reply with
          | ok nodes =>
              simp only [step, bringsRoots, CatalogSession.finish, found, if_true,
                CatalogTree.finishLoad]
              exact .loaded found
          | error error =>
              simp only [step, bringsRoots, listedBy?, CatalogSession.finish, found,
                Bool.false_eq_true, if_false, Option.toList_none, List.append_nil,
                CatalogTree.finishLoad]
              exact .dropped found
      | children mark toggling =>
          cases reply with
          | error error =>
              simp only [step, bringsRoots, listedBy?, outcome?, CatalogSession.finish, found,
                Bool.false_eq_true, if_false, Option.toList_none, List.append_nil,
                CatalogSession.finishExpand, CatalogTree.finishExpand]
              exact .ended found
          | ok listing =>
              have takes := run.session.tree.takeListing_takes mark listing
              generalize taken : run.session.tree.takeListing mark listing = result at takes
              cases takes with
              | loaded current put =>
                  rw [step_of_listed found current put]
                  exact .listed found current put
              | discarded | stale =>
                  simp only [step, bringsRoots, listedBy?, outcome?, CatalogSession.finish, found,
                    Bool.false_eq_true, if_false, CatalogSession.finishExpand,
                    CatalogTree.finishExpand, CatalogSession.forget, taken, Option.toList_none,
                    List.append_nil]
                  exact .ended found

theorem step_transition (run : CatalogRun) (event : CatalogEvent) :
    Transition run event (run.step event) := by
  cases event with
  | reply number reply => exact run.reply_transition number reply
  | replaceRoots nodes => exact .replaced nodes
  | collapse id => exact .collapsed id
  | cancel number =>
      cases found : run.session.waiting.lookup number with
      | none =>
          simp only [step, CatalogSession.abandon, found,
            CatalogSession.forget_of_lookup_none found]
          exact .missing found
      | some waiting =>
          simp only [step, CatalogSession.abandon, found]
          cases waiting with
          | roots => exact .dropped found
          | children mark toggling => exact .ended found
  | start number operation =>
      by_cases used : number ∈ run.calls.map Prod.fst
      · simp only [step, used, if_true]
        exact .unchanged
      · simp only [step, used, if_false]
        cases target : operation.target? with
        | none =>
            cases operation with
            | load =>
                simp only [CatalogSession.start, noteStart, CatalogOperation.target?,
                  Option.map_none, Option.toList_none, List.append_nil]
                exact .loading used
            | expand id | toggle id => simp [CatalogOperation.target?] at target
        | some id =>
            rcases run.session.start_cases number target with ⟨_, collapses⟩ | ⟨toggling, expands⟩
            · rw [collapses]
              exact .collapsed id
            · rw [expands]
              exact run.startExpand_transition toggling used target

end CatalogRun

end CatalogBrowser
