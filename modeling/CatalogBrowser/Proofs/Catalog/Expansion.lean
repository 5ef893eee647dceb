import CatalogBrowser.Proofs.Catalog.Settled

/-!
What expanding a node comes to, whatever happens in between: when it calls the backend, what
becomes of the listing, and what is left after a failure.
-/

namespace CatalogBrowser

open CatalogNode (GrownIn)

theorem CatalogSession.start_waiting_iff (session : CatalogSession) (number : Nat)
    {operation : CatalogOperation} {id : String} (target : operation.target? = some id)
    (call : CatalogCall) :
    (session.start number operation).2 = .waiting call ↔ session.tree.Ready id call := by
  have expands : ∀ toggling, (session.startExpand number id toggling).2 = .waiting call ↔
      session.tree.Ready id call := by
    intro toggling
    unfold startExpand
    have begins := session.tree.startExpand_begins id
    generalize session.tree.startExpand id = begun at begins
    cases begins with
    | loading loading =>
        simp only [reduceCtorEq, false_iff]
        exact fun ready => ready.idle loading
    | unknown loading found =>
        simp only [reduceCtorEq, false_iff]
        rintro ⟨_, _, node, listable, _⟩
        simp [listable.found] at found
    | expanded loading found expanded =>
        simp only [reduceCtorEq, false_iff]
        exact fun ready => ready.closed expanded
    | leaf loading found expanded leaf =>
        simp only [reduceCtorEq, false_iff]
        rintro ⟨_, _, node, listable, _⟩
        obtain rfl := listable.eq_of_find? found
        simp [listable.inner, listable.hinted] at leaf
    | cached loading expanded found inner listed =>
        simp only [reduceCtorEq, false_iff]
        rintro ⟨_, _, node, listable, _⟩
        obtain rfl := listable.eq_of_find? found
        simp [listable.unlisted] at listed
    | @fetching node made loading expanded listable listing =>
        rw [Started.waiting.injEq]
        constructor
        · rintro rfl
          exact ⟨loading, expanded, node, listable, listing⟩
        · rintro ⟨_, _, other, otherListable, otherListing⟩
          obtain rfl := otherListable.eq_of_find? listable.found
          exact Option.some.inj (Except.ok.inj (listing.symm.trans otherListing))
    | failing loading expanded listable listing =>
        simp only [reduceCtorEq, false_iff]
        rintro ⟨_, _, other, otherListable, otherListing⟩
        obtain rfl := otherListable.eq_of_find? listable.found
        simp [listing] at otherListing
  rcases session.start_cases number target with ⟨shown, collapses⟩ | ⟨toggling, started⟩
  · rw [collapses]
    simp only [reduceCtorEq, false_iff]
    exact fun ready => ready.closed shown
  · rw [started]
    exact expands toggling

theorem CatalogSession.start_eq_of_error (session : CatalogSession) (number : Nat)
    {operation : CatalogOperation} {id : String} (target : operation.target? = some id)
    {mark : FetchMark} {error : Error}
    (fails : (session.tree.startExpand id).2 = .fetching mark (.error error)) :
    session.start number operation =
      (session, .finished
        ⟨.error error, [.ofError ("Failed to load children of " ++ id) error]⟩) := by
  rcases session.start_cases number target with ⟨shown, _⟩ | ⟨toggling, started⟩
  · have begins := session.tree.startExpand_begins id
    generalize session.tree.startExpand id = begun at begins fails
    cases begins with
    | loading | unknown | expanded | leaf | cached | fetching => simp at fails
    | failing _ closed => exact absurd shown closed
  · rw [started, session.startExpand_of_error number toggling fails]

theorem CatalogSession.start_of_error (session : CatalogSession) (number : Nat)
    {operation : CatalogOperation} {id : String} (target : operation.target? = some id)
    {mark : FetchMark} {error : Error}
    (fails : (session.tree.startExpand id).2 = .fetching mark (.error error)) :
    (session.start number operation).1 = session := by
  rw [session.start_eq_of_error number target fails]

theorem CatalogTree.startExpand_ne_discarded (tree : CatalogTree) (id : String) :
    (tree.startExpand id).2 ≠ .answered (.ok .discarded) := by
  have begins := tree.startExpand_begins id
  generalize tree.startExpand id = begun at begins
  cases begins <;> simp

namespace CatalogRun

section

variable {run : CatalogRun}

/-! While the roots stay -/

/-- An event that leaves the roots only gives listings to nodes without one, and notes them. -/
theorem Settled.grownIn_step (settled : Settled run) (recent : run.Recent)
    {event : CatalogEvent} (brings : run.BringsDistinct event)
    (same : (run.step event).replacements = run.replacements) :
    GrownIn run.session.tree.nodes (run.step event).session.tree.nodes ∧
      ∀ id ∈ run.listed, id ∈ (run.step event).listed := by
  have transition := run.step_transition event
  generalize run.step event = next at same transition
  cases transition with
  | unchanged | cached | loading | fetching | missing | dropped =>
      exact ⟨CatalogNode.grownIn_refl _, fun _ => id⟩
  | collapsed other =>
      refine ⟨?_, fun _ => id⟩
      change GrownIn _ (run.session.tree.collapse other).1.nodes
      rw [CatalogTree.collapse_nodes]
      exact CatalogNode.grownIn_refl _
  | ended found =>
      refine ⟨?_, fun _ => id⟩
      change GrownIn _ (run.session.tree.clearMark _).nodes
      rw [CatalogTree.clearMark_nodes]
      exact CatalogNode.grownIn_refl _
  | listed found current put =>
      obtain ⟨fetch, rfl, rfl, splice⟩ := settled.splice recent found current put brings
      refine ⟨?_, fun other => List.mem_append_left _⟩
      rw [splice.spread]
      exact CatalogNode.grownIn_spreadIn splice.unlisted _
  | replaced nodes => exact absurd same (Nat.succ_ne_self _)
  | loaded found => exact absurd same (Nat.succ_ne_self _)

theorem Settled.grownIn_after (settled : Settled run) {events : List CatalogEvent}
    (orderly : run.Orderly events)
    (same : (run.after events).replacements = run.replacements) :
    GrownIn run.session.tree.nodes (run.after events).session.tree.nodes ∧
      ∀ id ∈ run.listed, id ∈ (run.after events).listed := by
  refine settled.after_induction (motive := fun next =>
    GrownIn run.session.tree.nodes next.session.tree.nodes ∧
      ∀ id ∈ run.listed, id ∈ next.listed) orderly same
    ⟨CatalogNode.grownIn_refl _, fun _ => id⟩ ?_
  intro between event _ settled recent brings kept before
  have step := settled.grownIn_step recent brings kept
  exact ⟨CatalogNode.grownIn_trans before.1 step.1, fun id listed => step.2 id (before.2 id listed)⟩

theorem Settled.ready_step (settled : Settled run) (recent : run.Recent)
    {event : CatalogEvent} (brings : run.BringsDistinct event)
    (same : (run.step event).replacements = run.replacements) {id : String} {call : CatalogCall}
    (others : ∀ number operation, event = .start number operation →
      operation.target? ≠ some id)
    (ready : run.session.tree.Ready id call) : (run.step event).session.tree.Ready id call := by
  have transition := run.step_transition event
  generalize run.step event = next at same transition
  obtain ⟨idle, closed, node, listable, listing⟩ := ready
  cases transition with
  | unchanged => exact ⟨idle, closed, node, listable, listing⟩
  | @cached number operation other otherNode children target _ _ _ _ _ =>
      refine ⟨idle, ?_, node, listable.of_nodes_eq rfl, listing⟩
      have different : other ≠ id := fun equal => others number operation rfl (equal ▸ target)
      simp [closed, Ne.symm different]
  | collapsed other =>
      refine ⟨?_, fun shown => closed (CatalogTree.mem_expanded_of_collapse shown), node,
        listable.of_nodes_eq (CatalogTree.collapse_nodes _ _), listing⟩
      change id ∉ (run.session.tree.collapse other).1.loading
      rwa [CatalogTree.collapse_loading]
  | loading => exact ⟨idle, closed, node, listable, listing⟩
  | @fetching number operation other otherNode otherCall toggling _ target _ _ _ _ =>
      refine ⟨?_, closed, node, listable.of_nodes_eq rfl, listing⟩
      have different : other ≠ id := fun equal => others number operation rfl (equal ▸ target)
      simp [CatalogSession.wait, idle, Ne.symm different]
  | missing | dropped => exact ⟨idle, closed, node, listable, listing⟩
  | ended found =>
      refine ⟨fun marked => idle (CatalogTree.mem_loading_of_clearMark marked), ?_, node,
        listable.of_nodes_eq (CatalogTree.clearMark_nodes _ _), listing⟩
      change id ∉ (run.session.tree.clearMark _).expanded
      rwa [CatalogTree.clearMark_expanded]
  | listed found current put =>
      obtain ⟨fetch, rfl, rfl, splice⟩ := settled.splice recent found current put brings
      have different : id ≠ fetch.id := fun equal =>
        idle (settled.mem_loading.mpr ⟨fetch, splice.member, splice.current, equal.symm⟩)
      refine ⟨fun marked => idle (CatalogTree.mem_loading_of_clearMark marked), ?_, _,
        splice.listable_of_ne listable different rfl, ?_⟩
      · exact fun shown => (mem_addNew.mp shown).elim closed different
      · rwa [CatalogNode.nodeType_spread]
  | replaced nodes => exact absurd same (Nat.succ_ne_self _)
  | loaded found => exact absurd same (Nat.succ_ne_self _)

theorem Settled.ready_after (settled : Settled run) {events : List CatalogEvent}
    (orderly : run.Orderly events)
    (same : (run.after events).replacements = run.replacements) {id : String} {call : CatalogCall}
    (others : ∀ number operation, .start number operation ∈ events →
      operation.target? ≠ some id)
    (ready : run.session.tree.Ready id call) : (run.after events).session.tree.Ready id call := by
  refine settled.after_induction (motive := fun next => next.session.tree.Ready id call)
    orderly same ready ?_
  intro between event member settled recent brings kept before
  exact settled.ready_step recent brings kept
    (fun number operation equal => others number operation (equal ▸ member)) before

/-! The end of a fetch -/

theorem Settled.ready_of_givesUp (settled : Settled run) (recent : run.Recent)
    {fetch : OpenFetch} (member : fetch ∈ run.fetches) (current : fetch.epoch = run.replacements)
    {event : CatalogEvent} (givesUp : event.GivesUp fetch.number) :
    (run.step event).session.tree.Ready fetch.id fetch.call := by
  rw [settled.tree_of_givesUp recent member givesUp, if_pos current]
  obtain ⟨node, listable, listing⟩ := settled.awaited fetch member current
  have marked : fetch.id ∈ run.session.tree.loading :=
    settled.mem_loading.mpr ⟨fetch, member, current, rfl⟩
  exact ⟨by simp, settled.apart _ marked, node, listable.of_nodes_eq rfl, listing⟩

theorem exists_listing_of_outcome? {number : Nat} {reply : Except Error (List CatalogNode)}
    {expansion : Expansion} (answer : run.outcome? number reply = some (.ok expansion)) :
    ∃ mark toggling listing, reply = .ok listing ∧
      run.session.waiting.lookup number = some (.children mark toggling) ∧
      (run.session.tree.takeListing mark listing).2 = expansion := by
  unfold outcome? at answer
  cases found : run.session.waiting.lookup number with
  | none => simp [found] at answer
  | some waiting =>
      cases waiting with
      | roots => simp [found] at answer
      | children mark toggling =>
          cases reply with
          | error error => simp [found, CatalogTree.finishExpand] at answer
          | ok listing =>
              refine ⟨mark, toggling, listing, rfl, rfl, ?_⟩
              simpa [found, CatalogTree.finishExpand] using answer

theorem Settled.stale_of_discarded (settled : Settled run) (recent : run.Recent)
    {number : Nat} {reply : Except Error (List CatalogNode)}
    (answer : run.outcome? number reply = some (.ok .discarded)) :
    ∃ fetch ∈ run.fetches, fetch.number = number ∧ fetch.epoch < run.replacements := by
  obtain ⟨mark, toggling, listing, rfl, found, outcome⟩ := exists_listing_of_outcome? answer
  obtain ⟨fetch, member, rfl, rfl⟩ := settled.fetch_of_lookup found
  refine ⟨fetch, member, rfl, Nat.lt_of_le_of_ne (settled.epochs fetch member) ?_⟩
  intro current
  obtain ⟨node, listable, _⟩ := settled.awaited fetch member current
  have takes := run.session.tree.takeListing_takes fetch.mark listing
  generalize run.session.tree.takeListing fetch.mark listing = taken at takes outcome
  cases takes with
  | loaded => simp at outcome
  | discarded _ missing =>
      rw [CatalogNode.putChildren_eq settled.distinct, decide_eq_false_iff_not] at missing
      exact missing (CatalogNode.mem_idsIn_of_findIn? listable.found)
  | stale other => exact other ((settled.current_iff recent member).mpr current)

theorem Settled.loaded (settled : Settled run) (recent : run.Recent)
    {fetch : OpenFetch} (member : fetch ∈ run.fetches) {listing : List CatalogNode} {count : Nat}
    (brings : run.BringsDistinct (.reply fetch.number (.ok listing)))
    (answer : run.outcome? fetch.number (.ok listing) = some (.ok (.loaded count))) :
    let next := run.step (.reply fetch.number (.ok listing))
    count = listing.length ∧ next.replacements = run.replacements ∧ fetch.id ∈ next.listed ∧
      ∃ node, next.session.tree.find? fetch.id = some node ∧ node.children = some listing := by
  intro next
  obtain ⟨mark, toggling, listing, same, found, outcome⟩ := exists_listing_of_outcome? answer
  obtain rfl := Except.ok.inj same
  have takes := run.session.tree.takeListing_takes mark listing
  generalize run.session.tree.takeListing mark listing = taken at takes outcome
  cases takes with
  | discarded | stale => simp at outcome
  | @loaded nodes current put =>
      obtain ⟨other, number, rfl, splice⟩ := settled.splice recent found current put brings
      obtain rfl := settled.fetch_ext splice.member member number
      have stepped : next = _ := step_of_listed found current put
      obtain ⟨node, listed, _, children⟩ := splice.children
      rw [stepped]
      refine ⟨by simpa using outcome.symm, rfl, ?_, node, listed, children⟩
      exact List.mem_append_right _ (List.mem_singleton.mpr rfl)

theorem Settled.startExpand_of_listed (settled : Settled run) {id : String}
    (listed : id ∈ run.listed) :
    (run.session.tree.startExpand id).2 = .answered (.ok .alreadyExpanded) ∨
      (run.session.tree.startExpand id).2 = .answered (.ok .cached) := by
  obtain ⟨node, found, inner, children⟩ := settled.given id listed
  have begins := run.session.tree.startExpand_begins id
  generalize run.session.tree.startExpand id = begun at begins
  cases begins with
  | expanded => exact Or.inl rfl
  | cached => exact Or.inr rfl
  | loading marked =>
      obtain ⟨fetch, member, current, rfl⟩ := settled.mem_loading.mp marked
      obtain ⟨other, listable, _⟩ := settled.awaited fetch member current
      obtain rfl := listable.eq_of_find? found
      exact absurd listable.unlisted children
  | unknown _ missing => simp [found] at missing
  | leaf _ otherFound _ leaf =>
      obtain rfl := Option.some.inj (found.symm.trans otherFound)
      simp [inner, children] at leaf
  | fetching _ _ listable | failing _ _ listable =>
      obtain rfl := listable.eq_of_find? found
      exact absurd listable.unlisted children

end

theorem settled_split {name : String} {before later : List CatalogEvent} {event : CatalogEvent}
    (orderly : (opened name).Orderly (before ++ event :: later)) :
    Settled (of name before) ∧ (of name before).Recent ∧ (of name before).BringsDistinct event ∧
      Settled ((of name before).step event) ∧ ((of name before).step event).Orderly later := by
  obtain ⟨first, recent, brings, rest⟩ := orderly.split
  have settled := settled_of name first
  exact ⟨settled, recent, brings, settled.step recent brings, rest⟩

theorem kept_of_loaded {name : String} {before later : List CatalogEvent} {fetch : OpenFetch}
    {listing : List CatalogNode} {count : Nat}
    (orderly : (opened name).Orderly (before ++ .reply fetch.number (.ok listing) :: later))
    (member : fetch ∈ (of name before).fetches)
    (answer : (of name before).outcome? fetch.number (.ok listing) = some (.ok (.loaded count)))
    (same : (of name (before ++ .reply fetch.number (.ok listing) :: later)).replacements =
      (of name before).replacements) :
    let run := of name (before ++ .reply fetch.number (.ok listing) :: later)
    fetch.id ∈ run.listed ∧ ∃ node children, run.session.tree.find? fetch.id = some node ∧
      node.children = some children ∧ GrownIn listing children ∧ children.length = count := by
  intro run
  obtain ⟨settled, recent, brings, stepSettled, rest⟩ := settled_split orderly
  have ended : Settled run := settled_of name orderly
  obtain ⟨rfl, kept, listed, node, found, children⟩ := settled.loaded recent member brings answer
  rw [of_split] at same
  have parts : run = ((of name before).step (.reply fetch.number (.ok listing))).after later :=
    of_split ..
  obtain ⟨grown, still⟩ := stepSettled.grownIn_after rest (same.trans kept.symm)
  rw [← parts] at grown still
  obtain ⟨last, lastFound, lastGrown⟩ :=
    CatalogNode.findIn?_of_grownIn grown ended.distinct found
  obtain ⟨now, nowChildren, nowGrown⟩ := CatalogNode.children_of_grown lastGrown children
  exact ⟨still _ listed, last, now, lastFound, nowChildren, nowGrown,
    CatalogNode.length_of_grownIn nowGrown⟩

theorem ready_of_givenUp {name : String} {before later : List CatalogEvent} {event : CatalogEvent}
    {fetch : OpenFetch} (orderly : (opened name).Orderly (before ++ event :: later))
    (member : fetch ∈ (of name before).fetches) (givesUp : event.GivesUp fetch.number)
    (same : (of name (before ++ event :: later)).replacements = fetch.epoch)
    (others : ∀ number operation, .start number operation ∈ later →
      operation.target? ≠ some fetch.id) :
    (of name (before ++ event :: later)).session.tree.Ready fetch.id fetch.call := by
  obtain ⟨settled, recent, _, stepSettled, rest⟩ := settled_split orderly
  rw [of_split] at same ⊢
  -- the epoch of a fetch is at most the number of replacements, which only grows
  have epoch := settled.epochs fetch member
  have first := replacements_le_step (of name before) event
  have second := replacements_le_after ((of name before).step event) later
  have current : fetch.epoch = (of name before).replacements := by omega
  exact stepSettled.ready_after rest (by omega) others
    (settled.ready_of_givesUp recent member current givesUp)

/-- In an orderly run no node is listed twice, listings stay while the roots stay, and a fetch that
was given up can be made again. -/
theorem expansions_settle (name : String) (events : List CatalogEvent)
    (orderly : (opened name).Orderly events) :
    let run := of name events
    let tree := run.session.tree
    ((run.calls.map Prod.fst).Nodup ∧
      ∀ number operation id call, CatalogOperation.target? operation = some id →
        ((run.session.start number operation).2 = .waiting call ↔ tree.Ready id call)) ∧
    run.listed.Nodup ∧
    (∀ id ∈ tree.expanded, ∃ node children,
      tree.find? id = some node ∧ node.children = some children) ∧
    (∀ id ∈ tree.loading, ∃ node, tree.find? id = some node ∧ node.children = none) ∧
    (∀ before later fetch listing count,
      events = before ++ .reply fetch.number (.ok listing) :: later →
      fetch ∈ (of name before).fetches →
      (of name before).outcome? fetch.number (.ok listing) = some (.ok (.loaded count)) →
      run.replacements = (of name before).replacements →
      ((tree.startExpand fetch.id).2 = .answered (.ok .alreadyExpanded) ∨
        (tree.startExpand fetch.id).2 = .answered (.ok .cached)) ∧
      ∃ node children, tree.find? fetch.id = some node ∧ node.children = some children ∧
        GrownIn listing children ∧ children.length = count) ∧
    (∀ before event later fetch, events = before ++ event :: later →
      fetch ∈ (of name before).fetches → event.GivesUp fetch.number →
      run.replacements = fetch.epoch →
      (∀ number operation, .start number operation ∈ later →
        operation.target? ≠ some fetch.id) →
      ∀ number operation, CatalogOperation.target? operation = some fetch.id →
        (run.session.start number operation).2 = .waiting fetch.call) ∧
    (∀ number operation id mark error, CatalogOperation.target? operation = some id →
      (tree.startExpand id).2 = .fetching mark (.error error) →
      (run.session.start number operation).1 = run.session) ∧
    (∀ id, (tree.startExpand id).2 ≠ .answered (.ok .discarded)) ∧
    (∀ number reply, run.outcome? number reply = some (.ok .discarded) →
      ∃ fetch ∈ run.fetches, fetch.number = number ∧ fetch.epoch < run.replacements) := by
  intro run tree
  have settled : Settled run := settled_of name orderly
  refine ⟨⟨settled.numbers, ?_⟩, settled.once, ?_, ?_, ?_, ?_, ?_,
    run.session.tree.startExpand_ne_discarded, ?_⟩
  · intro number operation id call target
    exact run.session.start_waiting_iff number target call
  · intro id shown
    obtain ⟨node, found, children⟩ := settled.opened id shown
    obtain ⟨listing, listed⟩ := Option.ne_none_iff_exists'.mp children
    exact ⟨node, listing, found, listed⟩
  · intro id marked
    obtain ⟨fetch, member, current, rfl⟩ := settled.mem_loading.mp marked
    obtain ⟨node, listable, _⟩ := settled.awaited fetch member current
    exact ⟨node, listable.found, listable.unlisted⟩
  · intro before later fetch listing count parts member answer same
    subst parts
    obtain ⟨listed, kept⟩ := kept_of_loaded orderly member answer same
    exact ⟨settled.startExpand_of_listed listed, kept⟩
  · intro before event later fetch parts member givesUp same others number operation target
    subst parts
    exact (run.session.start_waiting_iff number target fetch.call).mpr
      (ready_of_givenUp orderly member givesUp same others)
  · intro number operation id mark error target fails
    exact run.session.start_of_error number target fails
  · intro number reply answer
    have recent : run.Recent := orderly.recent_after
    exact settled.stale_of_discarded recent answer

theorem expansions_settle_after_retry :
    let before : List CatalogEvent :=
      [.replaceRoots [.new "main" "main" .catalog], .start 0 (.expand "main"),
        .reply 0 (.error .json), .start 1 (.expand "main")]
    let listing : List CatalogNode := [.new "main.raw" "raw" .schema]
    let run := of "source" (before ++ [.reply 1 (.ok listing), .collapse "main"])
    (opened "source").Orderly (before ++ [.reply 1 (.ok listing), .collapse "main"]) ∧
      ∃ node children, run.session.tree.find? "main" = some node ∧
        node.children = some children ∧ GrownIn listing children ∧ children.length = 1 := by
  intro before listing run
  have orderly : (opened "source").Orderly
      (before ++ [.reply 1 (.ok listing), .collapse "main"]) := by decide
  have settles := (expansions_settle "source" _ orderly).2.2.2.2.1
  let fetch : OpenFetch := ⟨1, "main", .schemas "main", 1⟩
  have fetches : (of "source" before).fetches = [fetch] := by rfl
  have member : fetch ∈ (of "source" before).fetches := by simp [fetches]
  have answer : (of "source" before).outcome? 1 (.ok listing) = some (.ok (.loaded 1)) := by rfl
  have kept := settles before [.collapse "main"] fetch listing 1 rfl member answer (by decide)
  exact ⟨orderly, kept.2⟩

end CatalogRun

end CatalogBrowser
