import CatalogBrowser.Proofs.Catalog.Forest

/-!
Giving children to a node of any forest, also one in which ids repeat: it happens exactly when a
search finds the id, the node that the search finds gets the children, and only nodes with the id
change.
-/

namespace CatalogBrowser.CatalogNode

/-! A forest without what the nodes with an id say about their children -/

mutual

def pruned (id : String) : CatalogNode → CatalogNode
  | .node own name nodeType hasChildren children =>
    if own = id then .node own name nodeType false none
    else .node own name nodeType hasChildren (prunedBelow id children)

def prunedBelow (id : String) : Option (List CatalogNode) → Option (List CatalogNode)
  | none => none
  | some nodes => some (prunedIn id nodes)

def prunedIn (id : String) : List CatalogNode → List CatalogNode
  | [] => []
  | first :: rest => first.pruned id :: prunedIn id rest

end

section

variable {id : String} {new nodes : List CatalogNode}

theorem isSome_findIn?_iff : (findIn? id nodes).isSome = true ↔ id ∈ idsIn nodes := by
  rw [Option.isSome_iff_exists]
  constructor
  · rintro ⟨node, found⟩
    exact mem_idsIn_of_findIn? found
  · intro listed
    obtain ⟨node, member, same⟩ := List.mem_map.mp listed
    rw [findIn?_eq]
    exact Option.isSome_iff_exists.mp (List.find?_isSome.mpr ⟨node, member, decide_eq_true same⟩)

theorem found_graftIn (id : String) (new nodes : List CatalogNode) (found : Bool) :
    (graftIn id new found nodes).2 = (found || (findIn? id nodes).isSome) := by
  induction nodes using forest_induction generalizing found with
  | nil => simp [graftIn, findIn?]
  | unlisted own name kind hint rest ih =>
      rw [findIn?_cons_none]
      by_cases here : own = id
      · simp [graftIn, graft, here, ih]
      · cases found <;> simp [graftIn, graft, graftBelow, here, ih]
  | listed own name kind hint below rest belowIh restIh =>
      rw [findIn?_cons_some]
      by_cases here : own = id
      · simp [graftIn, graft, here, restIh]
      · cases found <;> simp [graftIn, graft, graftBelow, here, belowIh, restIh]

theorem prunedIn_graftIn (id : String) (new nodes : List CatalogNode) (found : Bool) :
    prunedIn id (graftIn id new found nodes).1 = prunedIn id nodes := by
  induction nodes using forest_induction generalizing found with
  | nil => rfl
  | unlisted own name kind hint rest ih =>
      by_cases here : own = id
      · simp [graftIn, graft, withChildren, prunedIn, pruned, here, ih]
      · cases found <;> simp [graftIn, graft, graftBelow, prunedIn, pruned, here, ih]
  | listed own name kind hint below rest belowIh restIh =>
      by_cases here : own = id
      · simp [graftIn, graft, withChildren, prunedIn, pruned, here, restIh]
      · cases found <;>
          simp [graftIn, graft, graftBelow, prunedIn, pruned, prunedBelow, here, belowIh, restIh]

theorem findIn?_graftIn (id : String) (new nodes : List CatalogNode) :
    findIn? id (graftIn id new false nodes).1 = (findIn? id nodes).map (withChildren new) := by
  induction nodes using forest_induction with
  | nil => rfl
  | unlisted own name kind hint rest ih =>
      by_cases here : own = id
      · simp [graftIn, graft, withChildren, findIn?_cons_some, findIn?_cons_none, here]
      · simp [graftIn, graft, graftBelow, findIn?_cons_none, here, ih]
  | listed own name kind hint below rest belowIh restIh =>
      by_cases here : own = id
      · simp [graftIn, graft, withChildren, findIn?_cons_some, here]
      · have met := found_graftIn id new below false
        simp only [graftIn, graft, graftBelow, here, if_false, Bool.false_eq_true,
          findIn?_cons_some, belowIh, met, Bool.false_or]
        cases findIn? id below with
        | none => exact restIh
        | some node => rfl

theorem findIn?_spreadIn_of_fresh {other : String} (fresh : other ∉ idsIn nodes) :
    findIn? other (spreadIn id new nodes) =
      if id ∈ idsIn nodes then findIn? other new else none := by
  induction nodes using forest_induction with
  | nil => rfl
  | unlisted own name kind hint rest ih =>
      simp only [idsIn_unlisted, List.mem_cons, not_or] at fresh ⊢
      by_cases here : own = id
      · subst here
        rw [spreadIn_cons_self, findIn?_cons_some, if_neg (Ne.symm fresh.1), ih fresh.2]
        split <;> simp
      · rw [spreadIn_cons_none, if_neg here, findIn?_cons_none, if_neg (Ne.symm fresh.1),
          ih fresh.2]
        simp [Ne.symm here]
  | listed own name kind hint below rest belowIh restIh =>
      simp only [idsIn_listed, List.mem_cons, List.mem_append, not_or] at fresh ⊢
      obtain ⟨notOwn, notBelow, notRest⟩ := fresh
      by_cases here : own = id
      · subst here
        rw [spreadIn_cons_self, findIn?_cons_some, if_neg (Ne.symm notOwn), restIh notRest]
        split <;> simp
      · rw [spreadIn_cons_some here, findIn?_cons_some, if_neg (Ne.symm notOwn),
          belowIh notBelow, restIh notRest]
        by_cases inBelow : id ∈ idsIn below <;> by_cases inRest : id ∈ idsIn rest <;>
          simp [inBelow, inRest, Ne.symm here]

end

/-- New children replace those of the nodes with an id, exactly when the id is found, and nothing
else changes. -/
theorem splicing_replaces_children (nodes : List CatalogNode) (id : String)
    (new : List CatalogNode) :
    let after := (putChildren nodes id new).1
    let found := (putChildren nodes id new).2
    found = (findIn? id nodes).isSome ∧
    (found = false → after = nodes) ∧
    (∀ node, findIn? id nodes = some node →
      findIn? id after =
        some (.node node.id node.name node.nodeType (!new.isEmpty) (some new))) ∧
    prunedIn id after = prunedIn id nodes ∧
    ((idsIn nodes).Nodup → (∀ other ∈ idsIn new, other ∉ idsIn nodes) →
      ∀ target, findIn? id nodes = some target →
        (∀ other node, other ≠ id →
          (∀ below, target.children = some below → other ∉ idsIn below) →
          findIn? other nodes = some node →
          ∃ later, findIn? other after = some later ∧ later.id = node.id ∧
            later.name = node.name ∧ later.nodeType = node.nodeType ∧
            later.hasChildren = node.hasChildren) ∧
        ∀ other ∈ idsIn new, ∃ node,
          findIn? other new = some node ∧ findIn? other after = some node) := by
  intro after found
  have met : found = (findIn? id nodes).isSome := found_graftIn id new nodes false
  refine ⟨met, ?_, ?_, prunedIn_graftIn id new nodes false, ?_⟩
  · intro missed
    have absent : id ∉ idsIn nodes := by
      rw [← isSome_findIn?_iff, ← met, missed]
      exact Bool.false_ne_true
    exact congrArg Prod.fst (graftIn_of_absent new absent false)
  · intro node listed
    have first := findIn?_graftIn id new nodes
    rw [listed] at first
    rcases node with ⟨own, name, kind, hint, children⟩
    exact first
  · intro nodup fresh target listed
    have put : after = spreadIn id new nodes := congrArg Prod.fst (putChildren_eq nodup new)
    rw [put]
    constructor
    · intro other node different apart old
      have outside := outside_of_findIn? nodup listed apart
      have known : other ∉ idsIn new :=
        fun again => fresh other again (mem_idsIn_of_findIn? old)
      have unlike : node.id ≠ id := by
        rwa [(mem_allIn_of_findIn? old).2]
      refine ⟨node.spread id new, ?_, id_spread node, name_spread node, nodeType_spread node,
        (spread_of_ne unlike).1⟩
      rw [findIn?_spreadIn outside known, old, Option.map_some]
    · intro other again
      obtain ⟨node, within⟩ := Option.isSome_iff_exists.mp (isSome_findIn?_iff.mpr again)
      refine ⟨node, within, ?_⟩
      rw [findIn?_spreadIn_of_fresh (fresh other again), if_pos (mem_idsIn_of_findIn? listed),
        within]

theorem splicing_replaces_children_of_schema :
    let sales : CatalogNode := .node "main.sales" "sales" .schema true
      (some [.new "main.sales.old" "old" .table])
    let nodes : List CatalogNode :=
      [.node "main" "main" .catalog true (some [sales, .new "main.hr" "hr" .schema])]
    let new : List CatalogNode := [.new "main.sales.orders" "orders" .table]
    let after := (putChildren nodes "main.sales" new).1
    (idsIn nodes).Nodup ∧ (∀ other ∈ idsIn new, other ∉ idsIn nodes) ∧
      findIn? "main.sales" nodes = some sales ∧
      (∃ later, findIn? "main.hr" after = some later ∧ later.name = "hr") ∧
      ∃ node, findIn? "main.sales.orders" after = some node := by
  intro sales nodes new after
  have nodup : (idsIn nodes).Nodup := by decide
  have fresh : ∀ other ∈ idsIn new, other ∉ idsIn nodes := by decide
  have found : findIn? "main.sales" nodes = some sales := by rfl
  obtain ⟨stays, comes⟩ :=
    (splicing_replaces_children nodes "main.sales" new).2.2.2.2 nodup fresh sales found
  have apart : ∀ below, sales.children = some below → "main.hr" ∉ idsIn below := by
    rintro below same
    obtain rfl := Option.some.inj same
    decide
  obtain ⟨later, again, _, name, _⟩ := stays "main.hr" _ (by decide) apart rfl
  obtain ⟨node, _, there⟩ := comes "main.sales.orders" (by decide)
  exact ⟨nodup, fresh, found, ⟨later, again, name⟩, node, there⟩

end CatalogBrowser.CatalogNode
