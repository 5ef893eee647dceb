import CatalogBrowser.Proofs.Catalog.Growth
import CatalogBrowser.Proofs.Catalog.Marks

/-!
What holds in every run in which no id is ever brought twice: which nodes have a listing, which of
them wait for one, and which can still get one.
-/

namespace CatalogBrowser

open CatalogNode (idsIn spreadIn Unlisted)

/-- Whether expanding a node calls the backend, and how. -/
structure CatalogTree.Ready (tree : CatalogTree) (id : String) (call : CatalogCall) : Prop where
  idle : id ∉ tree.loading
  closed : id ∉ tree.expanded
  listable : ∃ node, tree.Listable id node ∧ listingCall id node.nodeType = .ok (some call)

namespace CatalogRun

/-- No id is there twice among the nodes that an event brings, and those of a listing that goes
into the tree are new to it. -/
def BringsDistinct (run : CatalogRun) : CatalogEvent → Prop
  | .replaceRoots nodes => (idsIn nodes).Nodup
  | .reply number (.ok nodes) =>
    (run.bringsRoots number (.ok nodes) = true → (idsIn nodes).Nodup) ∧
      ∀ id ∈ run.listedBy? number (.ok nodes), (idsIn nodes).Nodup ∧
        ∀ other ∈ idsIn nodes, other ∉ idsIn run.session.tree.nodes
  | .reply _ (.error _) | .start _ _ | .cancel _ | .collapse _ => True

/-- All through the events, no id is brought twice and no fetch is open for too long. -/
def Orderly (run : CatalogRun) : List CatalogEvent → Prop
  | [] => run.Recent
  | event :: rest => run.Recent ∧ run.BringsDistinct event ∧ (run.step event).Orderly rest

instance decidableBringsDistinct (run : CatalogRun) (event : CatalogEvent) :
    Decidable (run.BringsDistinct event) :=
  match event with
  | .replaceRoots nodes => inferInstanceAs (Decidable (idsIn nodes).Nodup)
  | .reply number (.ok nodes) =>
    inferInstanceAs (Decidable ((run.bringsRoots number (.ok nodes) = true → (idsIn nodes).Nodup) ∧
      ∀ id ∈ run.listedBy? number (.ok nodes), (idsIn nodes).Nodup ∧
        ∀ other ∈ idsIn nodes, other ∉ idsIn run.session.tree.nodes))
  | .reply _ (.error _) | .start _ _ | .cancel _ | .collapse _ => instDecidableTrue

instance decidableRecent (run : CatalogRun) : Decidable run.Recent :=
  inferInstanceAs (Decidable (∀ fetch ∈ run.fetches, run.replacements < fetch.epoch + UInt64.size))

instance decidableOrderly (run : CatalogRun) :
    (events : List CatalogEvent) → Decidable (run.Orderly events)
  | [] => decidableRecent run
  | event :: rest =>
    have := decidableOrderly (run.step event) rest
    inferInstanceAs (Decidable (run.Recent ∧ run.BringsDistinct event ∧
      (run.step event).Orderly rest))

theorem Orderly.recent {run : CatalogRun} {events : List CatalogEvent}
    (orderly : run.Orderly events) : run.Recent := by
  cases events with
  | nil => exact orderly
  | cons event rest => exact orderly.1

theorem Orderly.split {run : CatalogRun} {first second : List CatalogEvent}
    (orderly : run.Orderly (first ++ second)) :
    run.Orderly first ∧ (run.after first).Orderly second := by
  induction first generalizing run with
  | nil => exact ⟨orderly.recent, orderly⟩
  | cons event rest ih =>
      obtain ⟨recent, brings, others⟩ := orderly
      obtain ⟨first, second⟩ := ih others
      exact ⟨⟨recent, brings, first⟩, second⟩

theorem Orderly.recent_after {run : CatalogRun} {events : List CatalogEvent}
    (orderly : run.Orderly events) : (run.after events).Recent := by
  rw [← List.append_nil events] at orderly
  exact orderly.split.2

/-- The nodes of a tree fit to what is shown and to what is fetched. -/
structure Settled (run : CatalogRun) : Prop extends Tracks run where
  numbers : (run.calls.map Prod.fst).Nodup
  distinct : (idsIn run.session.tree.nodes).Nodup
  opened : ∀ id ∈ run.session.tree.expanded, ∃ node,
    run.session.tree.find? id = some node ∧ node.children ≠ none
  inner : ∀ id ∈ run.session.tree.expanded, ∀ node,
    run.session.tree.find? id = some node → node.nodeType.isLeaf = false
  awaited : ∀ fetch ∈ run.fetches, fetch.epoch = run.replacements →
    ∃ node, run.session.tree.Listable fetch.id node ∧
      CatalogTree.listingCall fetch.id node.nodeType = .ok (some fetch.call)
  given : ∀ id ∈ run.listed, ∃ node, run.session.tree.find? id = some node ∧
    node.nodeType.isLeaf = false ∧ node.children ≠ none
  once : run.listed.Nodup

theorem settled_opened (name : String) : Settled (opened name) where
  toTracks := tracks_opened name
  numbers := List.nodup_nil
  distinct := List.nodup_nil
  opened := by simp [CatalogRun.opened]
  inner := by simp [CatalogRun.opened]
  awaited := by simp [CatalogRun.opened]
  given := by simp [CatalogRun.opened]
  once := List.nodup_nil

section

variable {run : CatalogRun}

theorem listedBy?_eq {number : Nat} {mark : FetchMark} {toggling : Bool}
    {listing nodes : List CatalogNode}
    (found : run.session.waiting.lookup number = some (.children mark toggling))
    (current : run.session.tree.generation = mark.generation)
    (put : CatalogNode.putChildren run.session.tree.nodes mark.id listing = (nodes, true)) :
    run.listedBy? number (.ok listing) = some mark.id := by
  simp [listedBy?, outcome?, found, CatalogTree.finishExpand, CatalogTree.takeListing, current, put]

structure Splice (run : CatalogRun) (fetch : OpenFetch) (listing nodes : List CatalogNode) :
    Prop where
  member : fetch ∈ run.fetches
  current : fetch.epoch = run.replacements
  listable : ∃ node, run.session.tree.Listable fetch.id node
  unlisted : Unlisted fetch.id run.session.tree.nodes
  spread : nodes = spreadIn fetch.id listing run.session.tree.nodes
  distinct : (idsIn listing).Nodup
  fresh : ∀ other ∈ idsIn listing, other ∉ idsIn run.session.tree.nodes

theorem Settled.splice (settled : Settled run) (recent : run.Recent) {number : Nat}
    {mark : FetchMark} {toggling : Bool} {listing nodes : List CatalogNode}
    (found : run.session.waiting.lookup number = some (.children mark toggling))
    (current : run.session.tree.generation = mark.generation)
    (put : CatalogNode.putChildren run.session.tree.nodes mark.id listing = (nodes, true))
    (brings : run.BringsDistinct (.reply number (.ok listing))) :
    ∃ fetch, fetch.number = number ∧ fetch.mark = mark ∧ Splice run fetch listing nodes := by
  obtain ⟨distinct, fresh⟩ := brings.2 mark.id (listedBy?_eq found current put)
  obtain ⟨fetch, member, rfl, rfl⟩ := settled.fetch_of_lookup found
  have epoch := (settled.current_iff recent member).mp current
  obtain ⟨node, listable, _⟩ := settled.awaited fetch member epoch
  rw [CatalogNode.putChildren_eq settled.distinct] at put
  exact ⟨fetch, rfl, rfl,
    { member, current := epoch, listable := ⟨node, listable⟩, distinct, fresh
      unlisted := CatalogNode.unlisted_of_findIn? settled.distinct listable.found listable.unlisted
      spread := (congrArg Prod.fst put).symm }⟩

theorem Splice.find? {fetch : OpenFetch} {listing nodes : List CatalogNode}
    (splice : Splice run fetch listing nodes) {id : String} {node : CatalogNode}
    (found : run.session.tree.find? id = some node) :
    CatalogNode.findIn? id nodes = some (node.spread fetch.id listing) := by
  have old : id ∉ idsIn listing :=
    fun fresh => splice.fresh id fresh (CatalogNode.mem_idsIn_of_findIn? found)
  rw [splice.spread, CatalogNode.findIn?_spreadIn (splice.unlisted.outside id) old]
  exact congrArg (Option.map (CatalogNode.spread fetch.id listing)) found

theorem Splice.listable_of_ne {fetch : OpenFetch} {listing nodes : List CatalogNode}
    (splice : Splice run fetch listing nodes) {id : String} {node : CatalogNode}
    (listable : run.session.tree.Listable id node) (different : id ≠ fetch.id)
    {tree : CatalogTree} (put : tree.nodes = nodes) :
    tree.Listable id (node.spread fetch.id listing) := by
  have apart : node.id ≠ fetch.id := by
    rwa [(CatalogNode.mem_allIn_of_findIn? listable.found).2]
  obtain ⟨hint, children⟩ := @CatalogNode.spread_of_ne _ listing _ apart
  refine ⟨?_, ?_, ?_, ?_⟩
  · rw [CatalogTree.find?, put]
    exact splice.find? listable.found
  · rw [children, listable.unlisted]
    rfl
  · rw [CatalogNode.nodeType_spread]
    exact listable.inner
  · rw [hint]
    exact listable.hinted

theorem Splice.children {fetch : OpenFetch} {listing nodes : List CatalogNode}
    (splice : Splice run fetch listing nodes) :
    ∃ node, CatalogNode.findIn? fetch.id nodes = some node ∧ node.nodeType.isLeaf = false ∧
      node.children = some listing := by
  obtain ⟨node, listable⟩ := splice.listable
  have same := (CatalogNode.mem_allIn_of_findIn? listable.found).2
  refine ⟨_, splice.find? listable.found, ?_, CatalogNode.children_spread_of_eq same⟩
  rw [CatalogNode.nodeType_spread]
  exact listable.inner

theorem Settled.of_nodes_eq (settled : Settled run) {next : CatalogRun} (tracks : Tracks next)
    (nodes : next.session.tree.nodes = run.session.tree.nodes)
    (replacements : next.replacements = run.replacements) (listed : next.listed = run.listed)
    (numbers : (next.calls.map Prod.fst).Nodup)
    (opened : ∀ id ∈ next.session.tree.expanded, id ∈ run.session.tree.expanded ∨
      ∃ node, run.session.tree.find? id = some node ∧ node.nodeType.isLeaf = false ∧
        node.children ≠ none)
    (awaited : ∀ fetch ∈ next.fetches, fetch ∈ run.fetches ∨
      ∃ node, run.session.tree.Listable fetch.id node ∧
        CatalogTree.listingCall fetch.id node.nodeType = .ok (some fetch.call)) :
    Settled next where
  toTracks := tracks
  numbers := numbers
  distinct := nodes ▸ settled.distinct
  opened := by
    intro id shown
    rw [CatalogTree.find?, nodes]
    refine (opened id shown).elim (settled.opened id) fun new => ?_
    obtain ⟨node, found, _, children⟩ := new
    exact ⟨node, found, children⟩
  inner := by
    intro id shown node found
    rw [CatalogTree.find?, nodes] at found
    rcases opened id shown with old | ⟨other, otherFound, inner, _⟩
    · exact settled.inner id old node found
    · obtain rfl := Option.some.inj (otherFound.symm.trans found)
      exact inner
  awaited := by
    intro fetch member current
    rw [replacements] at current
    obtain ⟨node, listable, call⟩ := (awaited fetch member).elim
      (fun old => settled.awaited fetch old current) fun new => new
    exact ⟨node, listable.of_nodes_eq nodes, call⟩
  given := by
    intro id present
    rw [listed] at present
    rw [CatalogTree.find?, nodes]
    exact settled.given id present
  once := listed ▸ settled.once

theorem Settled.newRoots (settled : Settled run) (tree : CatalogTree) {nodes : List CatalogNode}
    (tracks : Tracks { run with session :=
      { run.session with tree := tree.replaceRoots nodes } }.newRoots)
    (distinct : (idsIn nodes).Nodup) :
    Settled { run with session :=
      { run.session with tree := tree.replaceRoots nodes } }.newRoots where
  toTracks := tracks
  numbers := settled.numbers
  distinct := distinct
  opened := by simp [CatalogRun.newRoots, CatalogTree.replaceRoots]
  inner := by simp [CatalogRun.newRoots, CatalogTree.replaceRoots]
  awaited := by
    intro fetch member current
    have bound := settled.epochs fetch member
    simp only [CatalogRun.newRoots] at current
    omega
  given := by simp [CatalogRun.newRoots]
  once := List.nodup_nil

theorem numbers_concat {number : Nat} (call : CatalogCall)
    (numbers : (run.calls.map Prod.fst).Nodup) (unused : number ∉ run.calls.map Prod.fst) :
    ((run.calls ++ [(number, call)]).map Prod.fst).Nodup := by
  rw [List.map_append]
  refine numbers.append (List.nodup_singleton _) ?_
  intro other used same
  obtain rfl : other = number := by simpa using same
  exact unused used

theorem Settled.list (settled : Settled run) {fetch : OpenFetch} {listing nodes : List CatalogNode}
    (splice : Splice run fetch listing nodes) {next : CatalogRun} (tracks : Tracks next)
    (put : next.session.tree.nodes = nodes)
    (shown : next.session.tree.expanded = addNew run.session.tree.expanded fetch.id)
    (fetches : next.fetches = run.fetches.filter fun other => other.number ≠ fetch.number)
    (replacements : next.replacements = run.replacements)
    (listed : next.listed = run.listed ++ [fetch.id]) (calls : next.calls = run.calls) :
    Settled next where
  toTracks := tracks
  numbers := calls ▸ settled.numbers
  distinct := by
    rw [put, splice.spread]
    exact CatalogNode.nodup_idsIn_spreadIn splice.unlisted settled.distinct splice.distinct
      splice.fresh
  opened := by
    intro id present
    rw [shown, mem_addNew] at present
    rw [CatalogTree.find?, put]
    rcases present with old | rfl
    · obtain ⟨node, found, children⟩ := settled.opened id old
      exact ⟨_, splice.find? found, CatalogNode.children_spread_ne_none children⟩
    · obtain ⟨node, found, _, children⟩ := splice.children
      exact ⟨node, found, by simp [children]⟩
  inner := by
    intro id present node found
    rw [shown, mem_addNew] at present
    rw [CatalogTree.find?, put] at found
    rcases present with old | rfl
    · obtain ⟨before, beforeFound, _⟩ := settled.opened id old
      obtain rfl := Option.some.inj ((splice.find? beforeFound).symm.trans found)
      rw [CatalogNode.nodeType_spread]
      exact settled.inner id old before beforeFound
    · obtain ⟨listed, listedFound, inner, _⟩ := splice.children
      obtain rfl := Option.some.inj (listedFound.symm.trans found)
      exact inner
  awaited := by
    intro other member current
    rw [fetches, List.mem_filter, decide_eq_true_eq] at member
    obtain ⟨otherMember, different⟩ := member
    rw [replacements] at current
    obtain ⟨node, listable, call⟩ := settled.awaited other otherMember current
    have different : other.id ≠ fetch.id := fun same => different (congrArg OpenFetch.number
      (settled.current_ext otherMember splice.member current splice.current same))
    refine ⟨_, splice.listable_of_ne listable different put, ?_⟩
    rwa [CatalogNode.nodeType_spread]
  given := by
    intro id present
    rw [listed, List.mem_append, List.mem_singleton] at present
    rw [CatalogTree.find?, put]
    rcases present with old | rfl
    · obtain ⟨node, found, inner, children⟩ := settled.given id old
      refine ⟨_, splice.find? found, ?_, CatalogNode.children_spread_ne_none children⟩
      rwa [CatalogNode.nodeType_spread]
    · obtain ⟨node, found, inner, children⟩ := splice.children
      exact ⟨node, found, inner, by simp [children]⟩
  once := by
    rw [listed]
    refine settled.once.append (List.nodup_singleton _) ?_
    intro id old same
    obtain ⟨node, found, _, children⟩ := settled.given id old
    obtain ⟨other, listable⟩ := splice.listable
    rw [List.mem_singleton.mp same, listable.found, Option.some.injEq] at found
    exact children (found ▸ listable.unlisted)

theorem Settled.step (settled : Settled run) (recent : run.Recent)
    {event : CatalogEvent} (brings : run.BringsDistinct event) : Settled (run.step event) := by
  have tracks := settled.toTracks.step recent event
  have transition := run.step_transition event
  generalize run.step event = next at tracks transition
  cases transition with
  | unchanged => exact settled
  | @cached number operation id node children target loading expanded found inner listed =>
      refine settled.of_nodes_eq tracks rfl rfl rfl settled.numbers ?_ fun _ => Or.inl
      intro other shown
      rcases List.mem_append.mp shown with old | new
      · exact Or.inl old
      · rw [List.mem_singleton.mp new]
        exact Or.inr ⟨node, found, inner, by simp [listed]⟩
  | collapsed id =>
      exact settled.of_nodes_eq tracks (CatalogTree.collapse_nodes _ _) rfl rfl settled.numbers
        (fun _ shown => Or.inl (CatalogTree.mem_expanded_of_collapse shown)) fun _ => Or.inl
  | loading unused =>
      exact settled.of_nodes_eq tracks rfl rfl rfl (numbers_concat _ settled.numbers unused)
        (fun _ => Or.inl) fun _ => Or.inl
  | @fetching number operation id node call toggling unused target loading expanded listable
      listing =>
      refine settled.of_nodes_eq tracks rfl rfl rfl (numbers_concat _ settled.numbers unused)
        (fun _ => Or.inl) ?_
      intro fetch member
      rcases List.mem_append.mp member with old | new
      · exact Or.inl old
      · rw [List.mem_singleton.mp new]
        exact Or.inr ⟨node, listable, listing⟩
  | missing | dropped =>
      exact settled.of_nodes_eq tracks rfl rfl rfl settled.numbers (fun _ => Or.inl)
        fun _ member => Or.inl (List.mem_of_mem_filter member)
  | ended found =>
      refine settled.of_nodes_eq tracks (CatalogTree.clearMark_nodes _ _) rfl rfl settled.numbers
        ?_ fun _ member => Or.inl (List.mem_of_mem_filter member)
      intro other shown
      simp only [close, CatalogTree.clearMark_expanded] at shown
      exact Or.inl shown
  | @listed number mark toggling listing nodes found current put =>
      obtain ⟨fetch, rfl, rfl, splice⟩ := settled.splice recent found current put brings
      exact settled.list splice tracks rfl rfl rfl rfl rfl rfl
  | replaced nodes => exact settled.newRoots run.session.tree tracks brings
  | @loaded number nodes found =>
      have dropped : Settled (run.close number (run.session.forget number)) :=
        settled.of_nodes_eq (settled.drop found) rfl rfl rfl settled.numbers (fun _ => Or.inl)
          fun _ member => Or.inl (List.mem_of_mem_filter member)
      have distinct : (idsIn nodes).Nodup := brings.1 (by simp [bringsRoots, found])
      exact dropped.newRoots run.session.tree tracks distinct

theorem Settled.after (settled : Settled run) {events : List CatalogEvent}
    (orderly : run.Orderly events) : Settled (run.after events) := by
  induction events generalizing run with
  | nil => exact settled
  | cons event rest ih =>
      obtain ⟨recent, brings, others⟩ := orderly
      exact ih (settled.step recent brings) others

theorem Settled.after_induction {motive : CatalogRun → Prop} {events : List CatalogEvent}
    (settled : Settled run) (orderly : run.Orderly events)
    (same : (run.after events).replacements = run.replacements) (start : motive run)
    (next : ∀ {run : CatalogRun} {event}, event ∈ events → Settled run → run.Recent →
      run.BringsDistinct event → (run.step event).replacements = run.replacements →
      motive run → motive (run.step event)) :
    motive (run.after events) := by
  induction events generalizing run with
  | nil => exact start
  | cons event rest ih =>
      obtain ⟨recent, brings, others⟩ := orderly
      have first := replacements_le_step run event
      have later := replacements_le_after (run.step event) rest
      change ((run.step event).after rest).replacements = run.replacements at same
      have kept : (run.step event).replacements = run.replacements := by omega
      refine ih (settled.step recent brings) others (same.trans kept.symm)
        (next (by simp) settled recent brings kept start) ?_
      exact fun member => next (List.mem_cons_of_mem _ member)

end

theorem settled_of (name : String) {events : List CatalogEvent}
    (orderly : (opened name).Orderly events) : Settled (of name events) :=
  (settled_opened name).after orderly

end CatalogRun

end CatalogBrowser
