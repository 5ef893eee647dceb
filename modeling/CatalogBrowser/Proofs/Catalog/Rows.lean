import CatalogBrowser.Proofs.Catalog.Settled

/-!
Which rows of a tree are visible: the nodes whose ancestors are all expanded, in the order of the
forest.  Collapsing a node hides what is below it, and expanding it again brings that back.
-/

namespace CatalogBrowser

namespace CatalogNode

structure Located where
  above : List CatalogNode
  node : CatalogNode

mutual

def locate (above : List CatalogNode) : CatalogNode → List Located
  | .node id name nodeType hasChildren children =>
    ⟨above, .node id name nodeType hasChildren children⟩ ::
      locateBelow (.node id name nodeType hasChildren children :: above) children

def locateBelow (above : List CatalogNode) : Option (List CatalogNode) → List Located
  | none => []
  | some nodes => locateIn above nodes

def locateIn (above : List CatalogNode) : List CatalogNode → List Located
  | [] => []
  | first :: rest => first.locate above ++ locateIn above rest

end

/-- What it is for a node to have some nodes above it, the nearest first. -/
inductive Lies (roots : List CatalogNode) : List CatalogNode → CatalogNode → Prop
  | root {node} : node ∈ roots → Lies roots [] node
  | child {above parent nodes node} : Lies roots above parent → parent.children = some nodes →
      node ∈ nodes → Lies roots (parent :: above) node

section

variable {own name : String} {kind : CatalogKind} {hint : Bool}
  {above below rest nodes roots : List CatalogNode}

@[simp] theorem locateIn_unlisted : locateIn above (.node own name kind hint none :: rest) =
    ⟨above, .node own name kind hint none⟩ :: locateIn above rest := rfl

@[simp] theorem locateIn_listed : locateIn above (.node own name kind hint (some below) :: rest) =
    ⟨above, .node own name kind hint (some below)⟩ ::
      (locateIn (.node own name kind hint (some below) :: above) below ++
        locateIn above rest) := rfl

theorem map_node_locateIn (above nodes : List CatalogNode) :
    (locateIn above nodes).map Located.node = allIn nodes := by
  induction nodes using forest_induction generalizing above with
  | nil => rfl
  | unlisted own name kind hint rest ih => simp [ih]
  | listed own name kind hint below rest belowIh restIh => simp [belowIh, restIh]

theorem mem_allIn_of_locateIn {place : Located} (member : place ∈ locateIn above nodes) :
    place.node ∈ allIn nodes := by
  rw [← map_node_locateIn above nodes]
  exact List.mem_map_of_mem member

theorem lies_of_locateIn {place : Located} (start : ∀ node ∈ nodes, Lies roots above node)
    (member : place ∈ locateIn above nodes) : Lies roots place.above place.node := by
  induction nodes using forest_induction generalizing above with
  | nil => simp [locateIn] at member
  | unlisted own name kind hint rest ih =>
      obtain ⟨first, others⟩ := List.forall_mem_cons.mp start
      rw [locateIn_unlisted, List.mem_cons] at member
      rcases member with rfl | later
      · exact first
      · exact ih others later
  | listed own name kind hint below rest belowIh restIh =>
      obtain ⟨first, others⟩ := List.forall_mem_cons.mp start
      rw [locateIn_listed, List.mem_cons, List.mem_append] at member
      rcases member with rfl | inside | later
      · exact first
      · exact belowIh (fun node => .child first rfl) inside
      · exact restIh others later

theorem suffix_of_locateIn {place : Located} (member : place ∈ locateIn above nodes) :
    above <:+ place.above := by
  induction nodes using forest_induction generalizing above with
  | nil => simp [locateIn] at member
  | unlisted own name kind hint rest ih =>
      rw [locateIn_unlisted, List.mem_cons] at member
      rcases member with rfl | later
      · exact List.suffix_rfl
      · exact ih later
  | listed own name kind hint below rest belowIh restIh =>
      rw [locateIn_listed, List.mem_cons, List.mem_append] at member
      rcases member with rfl | inside | later
      · exact List.suffix_rfl
      · exact (List.suffix_cons _ _).trans (belowIh inside)
      · exact restIh later

theorem mem_locateIn_of_mem {node : CatalogNode} (member : node ∈ nodes) :
    ⟨above, node⟩ ∈ locateIn above nodes := by
  induction nodes with
  | nil => simp at member
  | cons first rest ih =>
      rw [locateIn, List.mem_append]
      rcases List.mem_cons.mp member with rfl | later
      · rcases node with ⟨_, _, _, _, _⟩
        exact Or.inl List.mem_cons_self
      · exact Or.inr (ih later)

theorem locateIn_subset {place : Located} (member : place ∈ locateIn above nodes)
    (children : place.node.children = some below) :
    locateIn (place.node :: place.above) below ⊆ locateIn above nodes := by
  induction nodes using forest_induction generalizing above with
  | nil => simp [locateIn] at member
  | unlisted own name kind hint rest ih =>
      rw [locateIn_unlisted, List.mem_cons] at member
      rcases member with rfl | later
      · simp [CatalogNode.children] at children
      · exact List.subset_cons_of_subset _ (ih later)
  | listed own name kind hint listing rest belowIh restIh =>
      rw [locateIn_listed, List.mem_cons, List.mem_append] at member
      rw [locateIn_listed]
      refine List.subset_cons_of_subset _ ?_
      rcases member with rfl | inside | later
      · obtain rfl : listing = below := Option.some.inj children
        exact List.subset_append_left _ _
      · exact List.subset_append_of_subset_left _ (belowIh inside)
      · exact List.subset_append_of_subset_right _ (restIh later)

theorem mem_locateIn_iff {node : CatalogNode} :
    ⟨above, node⟩ ∈ locateIn [] roots ↔ Lies roots above node := by
  constructor
  · exact lies_of_locateIn fun _ => .root
  · intro lies
    induction lies with
    | root member => exact mem_locateIn_of_mem member
    | child _ children member ih => exact locateIn_subset ih children (mem_locateIn_of_mem member)

theorem allIn_subset {node : CatalogNode} (member : node ∈ allIn nodes)
    (children : node.children = some below) : allIn below ⊆ allIn nodes := by
  rw [← map_node_locateIn [] nodes] at member
  obtain ⟨place, listed, rfl⟩ := List.mem_map.mp member
  rw [← map_node_locateIn (place.node :: place.above) below, ← map_node_locateIn [] nodes]
  exact List.map_subset _ (locateIn_subset listed children)

theorem mem_allIn_of_mem {node : CatalogNode} (member : node ∈ nodes) : node ∈ allIn nodes := by
  have located : ⟨[], node⟩ ∈ locateIn [] nodes := mem_locateIn_of_mem member
  exact mem_allIn_of_locateIn located

theorem Lies.below_ancestor {node ancestor : CatalogNode} (lies : Lies roots above node)
    (member : ancestor ∈ above) :
    ancestor ∈ allIn roots ∧ ∃ below, ancestor.children = some below ∧ node ∈ allIn below := by
  induction lies with
  | root => simp at member
  | @child above parent nodes node lies children inside ih =>
      rcases List.mem_cons.mp member with rfl | higher
      · exact ⟨mem_allIn_of_locateIn (mem_locateIn_iff.mpr lies), nodes, children,
          mem_allIn_of_mem inside⟩
      · obtain ⟨listed, below, ancestorChildren, parentBelow⟩ := ih higher
        exact ⟨listed, below, ancestorChildren,
          allIn_subset parentBelow children (mem_allIn_of_mem inside)⟩

/-- Where every id occurs once, the nodes with a certain ancestor are those below it. -/
theorem has_ancestor_iff {id : String} {node : CatalogNode} (nodup : (idsIn nodes).Nodup)
    (found : findIn? id nodes = some node) (children : node.children = some below)
    {place : Located} (member : place ∈ locateIn [] nodes) :
    (∃ ancestor ∈ place.above, ancestor.id = id) ↔ place.node.id ∈ idsIn below := by
  constructor
  · rintro ⟨ancestor, above, same⟩
    obtain ⟨listed, listing, ancestorChildren, inside⟩ :=
      (mem_locateIn_iff.mp member).below_ancestor above
    obtain rfl := eq_of_findIn? nodup found listed same
    obtain rfl := Option.some.inj (children.symm.trans ancestorChildren)
    exact List.mem_map_of_mem inside
  · intro inside
    obtain ⟨nodeMember, same⟩ := mem_allIn_of_findIn? found
    rw [← map_node_locateIn [] nodes] at nodeMember
    obtain ⟨own, listed, rfl⟩ := List.mem_map.mp nodeMember
    obtain ⟨other, otherMember, otherSame⟩ := List.mem_map.mp inside
    rw [← map_node_locateIn (own.node :: own.above) below] at otherMember
    obtain ⟨lower, lowerMember, rfl⟩ := List.mem_map.mp otherMember
    -- a place is told by the id of its node
    have ids : ((locateIn [] nodes).map fun place => place.node.id).Nodup := by
      have distinct := nodup
      rwa [idsIn, ← map_node_locateIn [] nodes, List.map_map] at distinct
    obtain rfl := List.inj_on_of_nodup_map ids (locateIn_subset listed children lowerMember) member
      otherSame
    exact ⟨own.node, (suffix_of_locateIn lowerMember).subset List.mem_cons_self, same⟩

end

end CatalogNode

open CatalogNode (Located locateIn idsIn)

namespace CatalogTree

/-- All nodes above a place are expanded. -/
def Open (tree : CatalogTree) (place : Located) : Prop :=
  ∀ ancestor ∈ place.above, tree.state ancestor.id = .expanded

instance (tree : CatalogTree) : DecidablePred tree.Open :=
  fun place => inferInstanceAs (Decidable (∀ ancestor ∈ place.above, _))

def rowAt (tree : CatalogTree) (place : Located) : TreeRow :=
  tree.row place.above.length place.node

theorem rowsIn_eq {tree : CatalogTree} {above : List CatalogNode}
    (shown : ∀ ancestor ∈ above, tree.state ancestor.id = .expanded) (nodes : List CatalogNode) :
    tree.rowsIn above.length nodes =
      ((locateIn above nodes).filter tree.Open).map tree.rowAt := by
  induction nodes using CatalogNode.forest_induction generalizing above with
  | nil => rfl
  | unlisted own name kind hint rest ih =>
      have opened (node : CatalogNode) : tree.Open ⟨above, node⟩ := shown
      rw [CatalogNode.locateIn_unlisted, List.filter_cons, if_pos (decide_eq_true (opened _)),
        List.map_cons, ← ih shown]
      simp [rowsIn, rowsOf, rowsBelow, rowAt]
  | listed own name kind hint below rest belowIh restIh =>
      have opened (node : CatalogNode) : tree.Open ⟨above, node⟩ := shown
      rw [CatalogNode.locateIn_listed, List.filter_cons, if_pos (decide_eq_true (opened _)),
        List.map_cons, List.filter_append, List.map_append, ← restIh shown]
      by_cases expanded : tree.state own = .expanded
      · have inside : ∀ ancestor ∈ .node own name kind hint (some below) :: above,
            tree.state ancestor.id = .expanded := List.forall_mem_cons.mpr ⟨expanded, shown⟩
        rw [← belowIh inside]
        simp [rowsIn, rowsOf, rowsBelow, rowAt, expanded]
      · have hidden : (locateIn (.node own name kind hint (some below) :: above) below).filter
            tree.Open = [] := by
          refine List.filter_eq_nil_iff.mpr fun place member opened => expanded ?_
          have inside := CatalogNode.suffix_of_locateIn member
          exact of_decide_eq_true opened _ (inside.subset List.mem_cons_self)
        rw [hidden]
        simp [rowsIn, rowsOf, rowAt, expanded]

theorem visibleRows_eq (tree : CatalogTree) : tree.visibleRows =
    ((locateIn [] tree.nodes).filter tree.Open).map tree.rowAt := by
  have shown : ∀ ancestor ∈ ([] : List CatalogNode), tree.state ancestor.id = .expanded := by simp
  exact rowsIn_eq shown tree.nodes

theorem visibleRows_congr {tree other : CatalogTree} (nodes : other.nodes = tree.nodes)
    (states : ∀ id, other.state id = tree.state id) : other.visibleRows = tree.visibleRows := by
  have opened (place : Located) : other.Open place ↔ tree.Open place := by
    simp only [Open, states]
  have rows : other.rowAt = tree.rowAt := by
    funext place
    simp only [rowAt, row, states]
  rw [visibleRows_eq, visibleRows_eq, nodes, rows]
  simp only [opened]

/-! Collapsing and expanding again -/

section

variable {tree : CatalogTree} {id : String}

theorem state_collapse (idle : id ∉ tree.loading) (shown : id ∈ tree.expanded) (other : String) :
    (tree.collapse id).1.state other = if other = id then .collapsed else tree.state other := by
  rw [collapse, if_pos shown]
  by_cases same : other = id
  · simp [state, same, idle]
  · simp [state, same]

theorem visibleRows_collapse (nodup : (idsIn tree.nodes).Nodup) (idle : id ∉ tree.loading)
    (shown : id ∈ tree.expanded) {node : CatalogNode} (found : tree.find? id = some node)
    {below : List CatalogNode} (children : node.children = some below) :
    (tree.collapse id).1.visibleRows =
      (tree.visibleRows.filter fun row => row.id ∉ idsIn below).map fun row =>
        if row.id = id then { row with state := .collapsed } else row := by
  have states := state_collapse idle shown
  have rows (place : Located) : (tree.collapse id).1.rowAt place =
      if (tree.rowAt place).id = id then { tree.rowAt place with state := .collapsed }
      else tree.rowAt place := by
    by_cases same : place.node.id = id <;> simp [rowAt, row, states, same]
  have opened {place : Located} (member : place ∈ locateIn [] tree.nodes) :
      (tree.collapse id).1.Open place ↔ tree.Open place ∧ (tree.rowAt place).id ∉ idsIn below := by
    have ancestors := CatalogNode.has_ancestor_iff nodup found children member
    rw [rowAt, row, ← ancestors]
    simp only [Open, states]
    grind
  rw [visibleRows_eq, visibleRows_eq, collapse_nodes, List.filter_map, List.map_map,
    List.filter_filter]
  have kept : (locateIn [] tree.nodes).filter (tree.collapse id).1.Open =
      (locateIn [] tree.nodes).filter fun place =>
        decide ((tree.rowAt place).id ∉ idsIn below) && decide (tree.Open place) :=
    List.filter_congr fun place member => by
      rw [← Bool.decide_and, decide_eq_decide, opened member, and_comm]
  rw [kept]
  exact List.map_congr_left fun place _ => rows place

theorem startExpand_of_listed (idle : id ∉ tree.loading) (closed : id ∉ tree.expanded)
    {node : CatalogNode} (found : tree.find? id = some node)
    (inner : node.nodeType.isLeaf = false) (listed : node.children ≠ none) :
    tree.startExpand id =
      ({ tree with expanded := tree.expanded ++ [id] }, .answered (.ok .cached)) := by
  obtain ⟨children, same⟩ := Option.ne_none_iff_exists'.mp listed
  simp [startExpand, idle, closed, found, inner, same, addNew]

theorem startExpand_collapse (idle : id ∉ tree.loading) (shown : id ∈ tree.expanded)
    {node : CatalogNode} (found : tree.find? id = some node)
    (inner : node.nodeType.isLeaf = false) (listed : node.children ≠ none) :
    ∃ again, (tree.collapse id).1.startExpand id = (again, .answered (.ok .cached)) ∧
      again.visibleRows = tree.visibleRows := by
  have collapsed : (tree.collapse id).1 =
      { tree with expanded := tree.expanded.filter fun other => other ≠ id } := by
    rw [collapse, if_pos shown]
  rw [collapsed]
  refine ⟨_, startExpand_of_listed idle (by simp) found inner listed, visibleRows_congr rfl ?_⟩
  intro other
  by_cases same : other = id
  · simp [state, same, shown]
  · simp [state, same]

end

end CatalogTree

namespace CatalogRun

/-- The rows are the nodes below expanded ancestors only; collapsing a node hides those below it,
and expanding it again restores them without a call. -/
theorem rows_follow_expansion :
    (∀ tree : CatalogTree,
      tree.visibleRows = ((locateIn [] tree.nodes).filter fun place =>
          ∀ ancestor ∈ place.above, tree.state ancestor.id = .expanded).map (fun place =>
        { depth := place.above.length, id := place.node.id, name := place.node.name
          nodeType := place.node.nodeType, state := tree.state place.node.id
          expandable := place.node.hasExpander }) ∧
      (locateIn [] tree.nodes).map Located.node = CatalogNode.allIn tree.nodes ∧
      ∀ above node, ⟨above, node⟩ ∈ locateIn [] tree.nodes ↔
        CatalogNode.Lies tree.nodes above node) ∧
    ∀ name events, (opened name).Orderly events →
      let session := (of name events).session
      ∀ id ∈ session.tree.expanded, ∃ node below,
        session.tree.find? id = some node ∧ node.children = some below ∧
        (session.collapse id).2 = true ∧
        (session.collapse id).1.tree.visibleRows =
          (session.tree.visibleRows.filter fun row => row.id ∉ idsIn below).map (fun row =>
            if row.id = id then { row with state := .collapsed } else row) ∧
        ∀ number, ∃ again,
          (session.collapse id).1.start number (.expand id) =
            (again, .finished ⟨.ok (.outcome .cached), []⟩) ∧
          again.tree.visibleRows = session.tree.visibleRows := by
  refine ⟨fun tree => ⟨tree.visibleRows_eq, CatalogNode.map_node_locateIn [] tree.nodes,
    fun _ _ => CatalogNode.mem_locateIn_iff⟩, ?_⟩
  intro name events orderly session id shown
  have settled : Settled (of name events) := settled_of name orderly
  obtain ⟨node, found, listed⟩ := settled.opened id shown
  obtain ⟨below, children⟩ := Option.ne_none_iff_exists'.mp listed
  have idle : id ∉ session.tree.loading := fun marked => settled.apart id marked shown
  refine ⟨node, below, found, children, ?_, ?_, ?_⟩
  · rw [CatalogSession.collapse, CatalogTree.collapse, if_pos shown]
  · exact CatalogTree.visibleRows_collapse settled.distinct idle shown found children
  · intro number
    obtain ⟨again, begun, rows⟩ := CatalogTree.startExpand_collapse idle shown found
      (settled.inner id shown node found) listed
    refine ⟨{ session with tree := again }, ?_, rows⟩
    have begins : (session.collapse id).1.tree.startExpand id = _ := begun
    rw [CatalogSession.start, CatalogSession.startExpand, begins]
    rfl

theorem rows_follow_expansion_of_nested_nodes :
    let events : List CatalogEvent :=
      [.replaceRoots [.new "main" "main" .catalog], .start 0 (.expand "main"),
        .reply 0 (.ok [.new "main.raw" "raw" .schema, .new "main.hr" "hr" .schema]),
        .start 1 (.expand "main.raw"), .reply 1 (.ok [.new "main.raw.t" "t" .table]),
        .start 2 (.expand "main.hr")]
    let session := (of "source" events).session
    (opened "source").Orderly events ∧ "main" ∈ session.tree.expanded ∧
      session.tree.visibleRows.map (fun row => (row.depth, row.id, row.state)) =
        [(0, "main", .expanded), (1, "main.raw", .expanded), (2, "main.raw.t", .collapsed),
          (1, "main.hr", .loading)] ∧
      (session.collapse "main").1.tree.visibleRows.map (fun row => (row.id, row.state)) =
        [("main", .collapsed)] ∧
      ∃ again,
        (session.collapse "main").1.start 3 (.expand "main") =
          (again, .finished ⟨.ok (.outcome .cached), []⟩) ∧
        again.tree.visibleRows = session.tree.visibleRows := by
  intro events session
  have orderly : (opened "source").Orderly events := by decide
  have shown : "main" ∈ session.tree.expanded := by decide
  obtain ⟨_, _, _, _, _, _, restores⟩ :=
    rows_follow_expansion.2 "source" events orderly "main" shown
  exact ⟨orderly, shown, by decide, by decide, restores 3⟩

end CatalogRun

end CatalogBrowser
