import CatalogBrowser.Catalog.Forest
import Mathlib.Data.List.Basic
import Mathlib.Data.List.Nodup

/-!
Forests of catalog nodes in which every id occurs once: finding a node is looking it up, and giving
children to one node leaves every other node what it was.
-/

namespace CatalogBrowser.CatalogNode

theorem forest_induction {motive : List CatalogNode → Prop} (nil : motive [])
    (unlisted : ∀ own name kind hint rest, motive rest →
      motive (.node own name kind hint none :: rest))
    (listed : ∀ own name kind hint below rest, motive below → motive rest →
      motive (.node own name kind hint (some below) :: rest)) :
    ∀ nodes, motive nodes
  | [] => nil
  | .node own name kind hint none :: rest =>
    unlisted own name kind hint rest (forest_induction nil unlisted listed rest)
  | .node own name kind hint (some below) :: rest =>
    listed own name kind hint below rest (forest_induction nil unlisted listed below)
      (forest_induction nil unlisted listed rest)

mutual

/-- A node and all that is below it, in the order in which a search meets them. -/
def all : CatalogNode → List CatalogNode
  | .node id name nodeType hasChildren children =>
    .node id name nodeType hasChildren children :: allBelow children

def allBelow : Option (List CatalogNode) → List CatalogNode
  | none => []
  | some nodes => allIn nodes

def allIn : List CatalogNode → List CatalogNode
  | [] => []
  | first :: rest => first.all ++ allIn rest

end

def idsIn (nodes : List CatalogNode) : List String := (allIn nodes).map id

section

variable {id own name : String} {kind : CatalogKind} {hint : Bool}
  {new below rest nodes : List CatalogNode}

@[simp] theorem id_node {children : Option (List CatalogNode)} :
    (node own name kind hint children).id = own := rfl

@[simp] theorem allIn_nil : allIn [] = [] := rfl

@[simp] theorem allIn_unlisted : allIn (.node own name kind hint none :: rest) =
    .node own name kind hint none :: allIn rest := rfl

@[simp] theorem allIn_listed : allIn (.node own name kind hint (some below) :: rest) =
    .node own name kind hint (some below) :: (allIn below ++ allIn rest) := rfl

@[simp] theorem idsIn_nil : idsIn [] = [] := rfl

@[simp] theorem idsIn_unlisted : idsIn (.node own name kind hint none :: rest) =
    own :: idsIn rest := rfl

@[simp] theorem idsIn_listed : idsIn (.node own name kind hint (some below) :: rest) =
    own :: (idsIn below ++ idsIn rest) := by
  simp [idsIn]

theorem findIn?_cons_none : findIn? id (.node own name kind hint none :: rest) =
    if own = id then some (.node own name kind hint none) else findIn? id rest := by
  by_cases here : own = id
  · simp [findIn?, find?, here]
  · simp [findIn?, find?, findBelow?, here]

theorem findIn?_cons_some : findIn? id (.node own name kind hint (some below) :: rest) =
    if own = id then some (.node own name kind hint (some below))
    else (findIn? id below).or (findIn? id rest) := by
  by_cases here : own = id
  · simp [findIn?, find?, here]
  · simp only [findIn?, find?, findBelow?, here, if_false]
    cases findIn? id below <;> rfl

theorem findIn?_eq (id : String) (nodes : List CatalogNode) :
    findIn? id nodes = (allIn nodes).find? fun node => node.id = id := by
  induction nodes using forest_induction with
  | nil => rfl
  | unlisted own name kind hint rest ih =>
      rw [findIn?_cons_none, ih, allIn_unlisted, List.find?_cons]
      by_cases here : own = id <;> simp [here]
  | listed own name kind hint below rest belowIh restIh =>
      rw [findIn?_cons_some, belowIh, restIh, allIn_listed, List.find?_cons, List.find?_append]
      by_cases here : own = id <;> simp [here]

theorem mem_allIn_of_findIn? {node : CatalogNode} (found : findIn? id nodes = some node) :
    node ∈ allIn nodes ∧ node.id = id := by
  rw [findIn?_eq] at found
  exact ⟨List.mem_of_find?_eq_some found, by simpa using List.find?_some found⟩

theorem mem_idsIn_of_findIn? {node : CatalogNode} (found : findIn? id nodes = some node) :
    id ∈ idsIn nodes :=
  List.mem_map.mpr ⟨node, mem_allIn_of_findIn? found⟩

theorem findIn?_eq_none (absent : id ∉ idsIn nodes) : findIn? id nodes = none := by
  cases found : findIn? id nodes with
  | none => rfl
  | some node => exact absurd (mem_idsIn_of_findIn? found) absent

/-! Giving children to the nodes with an id, wherever they are -/

mutual

def spread (id : String) (new : List CatalogNode) : CatalogNode → CatalogNode
  | .node own name nodeType hasChildren children =>
    if own = id then (node own name nodeType hasChildren children).withChildren new
    else .node own name nodeType hasChildren (spreadBelow id new children)

def spreadBelow (id : String) (new : List CatalogNode) :
    Option (List CatalogNode) → Option (List CatalogNode)
  | none => none
  | some nodes => some (spreadIn id new nodes)

def spreadIn (id : String) (new : List CatalogNode) : List CatalogNode → List CatalogNode
  | [] => []
  | first :: rest => first.spread id new :: spreadIn id new rest

end

theorem spreadIn_of_absent (new : List CatalogNode) (absent : id ∉ idsIn nodes) :
    spreadIn id new nodes = nodes := by
  induction nodes using forest_induction with
  | nil => rfl
  | unlisted own name kind hint rest ih =>
      simp only [idsIn_unlisted, List.mem_cons, not_or] at absent
      simp [spreadIn, spread, spreadBelow, Ne.symm absent.1, ih absent.2]
  | listed own name kind hint below rest belowIh restIh =>
      simp only [idsIn_listed, List.mem_cons, List.mem_append, not_or] at absent
      simp [spreadIn, spread, spreadBelow, Ne.symm absent.1, belowIh absent.2.1,
        restIh absent.2.2]

theorem graftIn_of_absent (new : List CatalogNode) (absent : id ∉ idsIn nodes) (found : Bool) :
    graftIn id new found nodes = (nodes, found) := by
  induction nodes using forest_induction generalizing found with
  | nil => rfl
  | unlisted own name kind hint rest ih =>
      simp only [idsIn_unlisted, List.mem_cons, not_or] at absent
      cases found <;> simp [graftIn, graft, graftBelow, Ne.symm absent.1, ih absent.2]
  | listed own name kind hint below rest belowIh restIh =>
      simp only [idsIn_listed, List.mem_cons, List.mem_append, not_or] at absent
      cases found <;> simp [graftIn, graft, graftBelow, Ne.symm absent.1, belowIh absent.2.1,
        restIh absent.2.2]

/-- Where every id occurs once, giving up the search after the first node makes no difference. -/
theorem putChildren_eq (nodup : (idsIn nodes).Nodup) (new : List CatalogNode) :
    putChildren nodes id new = (spreadIn id new nodes, decide (id ∈ idsIn nodes)) := by
  unfold putChildren
  induction nodes using forest_induction with
  | nil => rfl
  | unlisted own name kind hint rest ih =>
      rw [idsIn_unlisted, List.nodup_cons] at nodup
      obtain ⟨absent, restNodup⟩ := nodup
      by_cases here : own = id
      · subst here
        simp [graftIn, graft, spreadIn, spread, graftIn_of_absent new absent,
          spreadIn_of_absent new absent]
      · simp [graftIn, graft, graftBelow, spreadIn, spread, spreadBelow, here, Ne.symm here,
          ih restNodup]
  | listed own name kind hint below rest belowIh restIh =>
      rw [idsIn_listed, List.nodup_cons, List.nodup_append, List.mem_append, not_or] at nodup
      obtain ⟨⟨notBelow, notRest⟩, belowNodup, restNodup, apart⟩ := nodup
      by_cases here : own = id
      · subst here
        simp [graftIn, graft, spreadIn, spread, graftIn_of_absent new notRest,
          spreadIn_of_absent new notRest]
      · by_cases inside : id ∈ idsIn below
        · have outside : id ∉ idsIn rest := fun later => apart id inside id later rfl
          simp [graftIn, graft, graftBelow, spreadIn, spread, spreadBelow, here, belowIh belowNodup,
            inside, graftIn_of_absent new outside, spreadIn_of_absent new outside]
        · simp [graftIn, graft, graftBelow, spreadIn, spread, spreadBelow, here, Ne.symm here,
            belowIh belowNodup, inside, restIh restNodup]

def Unlisted (id : String) (nodes : List CatalogNode) : Prop :=
  ∀ node ∈ allIn nodes, node.id = id → node.children = none

theorem unlisted_cons_none :
    Unlisted id (.node own name kind hint none :: rest) ↔ Unlisted id rest := by
  simp [Unlisted, children]

theorem unlisted_cons_some : Unlisted id (.node own name kind hint (some below) :: rest) ↔
    own ≠ id ∧ Unlisted id below ∧ Unlisted id rest := by
  simp only [Unlisted, allIn_listed, List.forall_mem_cons, List.forall_mem_append, id_node,
    children, reduceCtorEq, imp_false]

/-- Nothing with the other id is below a node with the id. -/
def Outside (id other : String) (nodes : List CatalogNode) : Prop :=
  ∀ node ∈ allIn nodes, node.id = id → ∀ below, node.children = some below → other ∉ idsIn below

theorem Unlisted.outside (unlisted : Unlisted id nodes) (other : String) :
    Outside id other nodes := by
  intro node member same below listed
  simp [unlisted node member same] at listed

theorem outside_cons_none {other : String} :
    Outside id other (.node own name kind hint none :: rest) ↔ Outside id other rest := by
  simp [Outside, children]

theorem outside_cons_some {other : String} :
    Outside id other (.node own name kind hint (some below) :: rest) ↔
      (own = id → other ∉ idsIn below) ∧ Outside id other below ∧ Outside id other rest := by
  simp only [Outside, allIn_listed, List.forall_mem_cons, List.forall_mem_append, id_node,
    children, Option.some.injEq, forall_eq']

theorem spreadIn_cons_none : spreadIn id new (.node own name kind hint none :: rest) =
    (if own = id then .node own name kind (!new.isEmpty) (some new)
      else .node own name kind hint none) :: spreadIn id new rest := rfl

theorem spreadIn_cons_some (different : own ≠ id) :
    spreadIn id new (.node own name kind hint (some below) :: rest) =
      .node own name kind hint (some (spreadIn id new below)) :: spreadIn id new rest := by
  simp [spreadIn, spread, spreadBelow, different]

theorem spreadIn_cons_self {children : Option (List CatalogNode)} :
    spreadIn id new (.node id name kind hint children :: rest) =
      .node id name kind (!new.isEmpty) (some new) :: spreadIn id new rest := by
  simp [spreadIn, spread, withChildren]

theorem mem_idsIn_spreadIn (unlisted : Unlisted id nodes) {other : String} :
    other ∈ idsIn (spreadIn id new nodes) ↔
      other ∈ idsIn nodes ∨ id ∈ idsIn nodes ∧ other ∈ idsIn new := by
  induction nodes using forest_induction with
  | nil => simp [spreadIn]
  | unlisted own name kind hint rest ih =>
      rw [spreadIn_cons_none]
      have rest := ih (unlisted_cons_none.mp unlisted)
      by_cases here : own = id
      · subst here
        simp only [if_true, idsIn_listed, idsIn_unlisted, List.mem_cons, List.mem_append, rest]
        grind
      · simp only [here, if_false, idsIn_unlisted, List.mem_cons, rest, Ne.symm here, false_or]
        grind
  | listed own name kind hint below rest belowIh restIh =>
      obtain ⟨different, belowUnlisted, restUnlisted⟩ := unlisted_cons_some.mp unlisted
      rw [spreadIn_cons_some different]
      simp only [idsIn_listed, List.mem_cons, List.mem_append, belowIh belowUnlisted,
        restIh restUnlisted, Ne.symm different, false_or]
      grind

theorem nodup_idsIn_spreadIn (unlisted : Unlisted id nodes) (nodup : (idsIn nodes).Nodup)
    (newNodup : (idsIn new).Nodup) (apart : ∀ other ∈ idsIn new, other ∉ idsIn nodes) :
    (idsIn (spreadIn id new nodes)).Nodup := by
  induction nodes using forest_induction with
  | nil => exact List.nodup_nil
  | unlisted own name kind hint rest ih =>
      rw [idsIn_unlisted, List.nodup_cons] at nodup
      obtain ⟨absent, restNodup⟩ := nodup
      rw [spreadIn_cons_none]
      by_cases here : own = id
      · subst here
        rw [spreadIn_of_absent new absent, if_pos rfl, idsIn_listed, List.nodup_cons,
          List.mem_append, not_or]
        refine ⟨⟨fun fresh => apart _ fresh (by simp), absent⟩, newNodup.append restNodup ?_⟩
        exact fun other fresh old => apart other fresh (by simp [old])
      · have restUnlisted := unlisted_cons_none.mp unlisted
        rw [if_neg here, idsIn_unlisted, List.nodup_cons, mem_idsIn_spreadIn restUnlisted, not_or,
          not_and]
        refine ⟨⟨absent, fun _ fresh => apart _ fresh (by simp)⟩, ih restUnlisted restNodup ?_⟩
        exact fun other fresh old => apart other fresh (by simp [old])
  | listed own name kind hint below rest belowIh restIh =>
      obtain ⟨different, belowUnlisted, restUnlisted⟩ := unlisted_cons_some.mp unlisted
      rw [idsIn_listed, List.nodup_cons, List.nodup_append', List.mem_append, not_or] at nodup
      obtain ⟨⟨notBelow, notRest⟩, belowNodup, restNodup, disjoint⟩ := nodup
      have belowFresh : ∀ other ∈ idsIn new, other ∉ idsIn below :=
        fun other fresh old => apart other fresh (by simp [old])
      have restFresh : ∀ other ∈ idsIn new, other ∉ idsIn rest :=
        fun other fresh old => apart other fresh (by simp [old])
      rw [spreadIn_cons_some different, idsIn_listed, List.nodup_cons, List.mem_append,
        mem_idsIn_spreadIn belowUnlisted, mem_idsIn_spreadIn restUnlisted]
      have ownOld : own ∉ idsIn new := fun fresh => apart own fresh (by simp)
      refine ⟨by grind, (belowIh belowUnlisted belowNodup belowFresh).append
        (restIh restUnlisted restNodup restFresh) ?_⟩
      intro other first second
      rw [mem_idsIn_spreadIn belowUnlisted] at first
      rw [mem_idsIn_spreadIn restUnlisted] at second
      -- the id is in one of the two parts only, so only one of them has the new nodes
      rcases first with first | ⟨inBelow, fresh⟩
      · rcases second with second | ⟨_, fresh⟩
        · exact disjoint first second
        · exact belowFresh other fresh first
      · rcases second with second | ⟨inRest, _⟩
        · exact restFresh other fresh second
        · exact disjoint inBelow inRest

theorem findIn?_spreadIn {other : String} (outside : Outside id other nodes)
    (old : other ∉ idsIn new) :
    findIn? other (spreadIn id new nodes) = (findIn? other nodes).map (spread id new) := by
  induction nodes using forest_induction with
  | nil => rfl
  | unlisted own name kind hint rest ih =>
      rw [spreadIn_cons_none, findIn?_cons_none]
      have restFound := ih (outside_cons_none.mp outside)
      by_cases here : own = id
      · rw [if_pos here, findIn?_cons_some, findIn?_eq_none old, Option.none_or, restFound]
        split
        · simp [spread, here, withChildren]
        · rfl
      · rw [if_neg here, findIn?_cons_none, restFound]
        split
        · simp [spread, spreadBelow, here]
        · rfl
  | listed own name kind hint below rest belowIh restIh =>
      obtain ⟨notBelow, belowOutside, restOutside⟩ := outside_cons_some.mp outside
      by_cases here : own = id
      · subst here
        rw [spreadIn_cons_self, findIn?_cons_some, findIn?_cons_some, findIn?_eq_none old,
          findIn?_eq_none (notBelow rfl), restIh restOutside]
        split
        · simp [spread, withChildren]
        · rfl
      · rw [spreadIn_cons_some here, findIn?_cons_some, findIn?_cons_some,
          belowIh belowOutside, restIh restOutside]
        split
        · simp [spread, spreadBelow, here]
        · exact Option.map_or.symm

theorem eq_of_findIn? (nodup : (idsIn nodes).Nodup) {node other : CatalogNode}
    (found : findIn? id nodes = some node) (member : other ∈ allIn nodes) (same : other.id = id) :
    other = node := by
  obtain ⟨nodeMember, nodeSame⟩ := mem_allIn_of_findIn? found
  exact List.inj_on_of_nodup_map nodup member nodeMember (same.trans nodeSame.symm)

theorem unlisted_of_findIn? (nodup : (idsIn nodes).Nodup) {node : CatalogNode}
    (found : findIn? id nodes = some node) (none : node.children = none) : Unlisted id nodes := by
  intro other member same
  rwa [eq_of_findIn? nodup found member same]

theorem outside_of_findIn? (nodup : (idsIn nodes).Nodup) {node : CatalogNode}
    (found : findIn? id nodes = some node) {other : String}
    (apart : ∀ below, node.children = some below → other ∉ idsIn below) :
    Outside id other nodes := by
  intro again member same
  rwa [eq_of_findIn? nodup found member same]

theorem findIn?_of_mem (nodup : (idsIn nodes).Nodup) {node : CatalogNode}
    (member : node ∈ allIn nodes) : findIn? node.id nodes = some node := by
  cases found : findIn? node.id nodes with
  | none =>
      rw [findIn?_eq, List.find?_eq_none] at found
      exact absurd (decide_eq_true rfl) (found node member)
  | some other =>
      rw [eq_of_findIn? nodup found member rfl]

@[simp] theorem id_spread (node : CatalogNode) : (node.spread id new).id = node.id := by
  rcases node with ⟨own, name, kind, hint, children⟩
  rw [spread]
  split <;> rfl

@[simp] theorem name_spread (node : CatalogNode) : (node.spread id new).name = node.name := by
  rcases node with ⟨own, name, kind, hint, children⟩
  rw [spread]
  split <;> rfl

@[simp] theorem nodeType_spread (node : CatalogNode) :
    (node.spread id new).nodeType = node.nodeType := by
  rcases node with ⟨own, name, kind, hint, children⟩
  rw [spread]
  split <;> rfl

theorem children_spread_of_eq {node : CatalogNode} (same : node.id = id) :
    (node.spread id new).children = some new := by
  rcases node with ⟨own, name, kind, hint, children⟩
  rw [id_node] at same
  rw [spread, if_pos same]
  rfl

theorem spread_of_ne {node : CatalogNode} (different : node.id ≠ id) :
    (node.spread id new).hasChildren = node.hasChildren ∧
      (node.spread id new).children = node.children.map (spreadIn id new) := by
  rcases node with ⟨own, name, kind, hint, children⟩
  rw [id_node] at different
  rw [spread, if_neg different]
  cases children <;> exact ⟨rfl, rfl⟩

theorem children_spread_ne_none {node : CatalogNode} (listed : node.children ≠ none) :
    (node.spread id new).children ≠ none := by
  by_cases same : node.id = id
  · rw [children_spread_of_eq same]
    simp
  · rw [(spread_of_ne same).2]
    simpa using listed

end

end CatalogBrowser.CatalogNode
