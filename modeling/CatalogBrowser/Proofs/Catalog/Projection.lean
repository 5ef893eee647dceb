import CatalogBrowser.Proofs.Catalog.Forest
import CatalogBrowser.Proofs.Catalog.Transition

/-!
A projection of a session: it takes some waiting operations out and moves the session to another
generation.  What an operation that stays does, it does the same after the projection.
-/

namespace CatalogBrowser

def CatalogTree.inGeneration (tree : CatalogTree) (generation : UInt64) : CatalogTree :=
  { tree with generation }

def FetchMark.inGeneration (mark : FetchMark) (generation : UInt64) : FetchMark :=
  { mark with generation }

def Waiting.inGeneration (generation : UInt64) : Waiting → Waiting
  | .roots => .roots
  | .children mark toggling => .children (mark.inGeneration generation) toggling

def ExpandStart.inGeneration (generation : UInt64) : ExpandStart → ExpandStart
  | .answered result => .answered result
  | .fetching mark call => .fetching (mark.inGeneration generation) call

/-- A session in another generation and without what waits under some numbers. -/
def CatalogSession.without (session : CatalogSession) (old : List Nat) (generation : UInt64) :
    CatalogSession where
  tree := session.tree.inGeneration generation
  waiting := (session.waiting.filter fun entry => entry.1 ∉ old).map fun entry =>
    (entry.1, entry.2.inGeneration generation)

/-! The tree in another generation -/

namespace CatalogTree

theorem startExpand_inGeneration (tree : CatalogTree) (generation : UInt64) (id : String) :
    (tree.inGeneration generation).startExpand id =
      ((tree.startExpand id).1.inGeneration generation,
        (tree.startExpand id).2.inGeneration generation) := by
  have sameNode : (tree.inGeneration generation).find? id = tree.find? id := rfl
  unfold startExpand
  rw [sameNode]
  by_cases loading : id ∈ tree.loading
  · simp [inGeneration, loading, ExpandStart.inGeneration]
  · cases found : tree.find? id with
    | none => simp [inGeneration, loading, ExpandStart.inGeneration]
    | some node =>
        by_cases expanded : id ∈ tree.expanded
        · simp [inGeneration, loading, expanded, ExpandStart.inGeneration]
        · simp only [inGeneration, loading, expanded, if_false]
          split
          · rfl
          · split <;> rfl

theorem clearMark_inGeneration {tree : CatalogTree} {mark : FetchMark}
    (current : tree.generation = mark.generation) (generation : UInt64) :
    (tree.inGeneration generation).clearMark (mark.inGeneration generation) =
      (tree.clearMark mark).inGeneration generation := by
  have both : (tree.inGeneration generation).generation =
    (mark.inGeneration generation).generation := rfl
  unfold clearMark
  rw [if_pos both, if_pos current]
  rfl

@[simp] theorem clearMark_name (tree : CatalogTree) (mark : FetchMark) :
    (tree.clearMark mark).name = tree.name := by
  unfold clearMark
  split <;> rfl

@[simp] theorem collapse_name (tree : CatalogTree) (id : String) :
    (tree.collapse id).1.name = tree.name := by
  unfold collapse
  split <;> rfl

theorem takeListing_inGeneration {tree : CatalogTree} {mark : FetchMark}
    (current : tree.generation = mark.generation) (generation : UInt64)
    (children : List CatalogNode) :
    (tree.inGeneration generation).takeListing (mark.inGeneration generation) children =
      ((tree.takeListing mark children).1.inGeneration generation,
        (tree.takeListing mark children).2) := by
  have both : (tree.inGeneration generation).generation =
    (mark.inGeneration generation).generation := rfl
  unfold takeListing
  rw [if_pos both, if_pos current, clearMark_inGeneration current]
  generalize tree.clearMark mark = cleared
  simp only [inGeneration, FetchMark.inGeneration]
  cases put : CatalogNode.putChildren cleared.nodes mark.id children with
  | mk nodes found => cases found <;> rfl

theorem finishExpand_inGeneration {tree : CatalogTree} {mark : FetchMark}
    (current : tree.generation = mark.generation) (generation : UInt64)
    (reply : Except Error (List CatalogNode)) :
    (tree.inGeneration generation).finishExpand (mark.inGeneration generation) reply =
      ((tree.finishExpand mark reply).1.inGeneration generation,
        (tree.finishExpand mark reply).2) := by
  cases reply with
  | ok children =>
      simp only [finishExpand, takeListing_inGeneration current generation children]
  | error error =>
      simp only [finishExpand, clearMark_inGeneration current generation]
      rfl

theorem finishExpand_of_stale {tree : CatalogTree} {mark : FetchMark}
    (stale : tree.generation ≠ mark.generation) (reply : Except Error (List CatalogNode)) :
    (tree.finishExpand mark reply).1 = tree := by
  cases reply with
  | ok children => simp [finishExpand, takeListing, stale]
  | error error => exact clearMark_of_ne stale

theorem collapse_inGeneration (tree : CatalogTree) (generation : UInt64) (id : String) :
    (tree.inGeneration generation).collapse id =
      ((tree.collapse id).1.inGeneration generation, (tree.collapse id).2) := by
  unfold collapse
  by_cases shown : id ∈ tree.expanded <;> simp [inGeneration, shown]

theorem rowsIn_inGeneration (tree : CatalogTree) (generation : UInt64) (depth : Nat)
    (nodes : List CatalogNode) :
    (tree.inGeneration generation).rowsIn depth nodes = tree.rowsIn depth nodes := by
  have sameState : ∀ id, (tree.inGeneration generation).state id = tree.state id := fun _ => rfl
  have sameRow : ∀ place node,
      (tree.inGeneration generation).row place node = tree.row place node := fun _ _ => rfl
  induction nodes using CatalogNode.forest_induction generalizing depth with
  | nil => simp only [rowsIn]
  | unlisted own name kind hint rest ih =>
      simp only [rowsIn, rowsOf, rowsBelow, sameState, sameRow, ih]
  | listed own name kind hint below rest belowIh restIh =>
      simp only [rowsIn, rowsOf, rowsBelow, sameState, sameRow, belowIh, restIh]

theorem visibleRows_inGeneration (tree : CatalogTree) (generation : UInt64) :
    (tree.inGeneration generation).visibleRows = tree.visibleRows :=
  tree.rowsIn_inGeneration generation 0 tree.nodes

end CatalogTree

/-! The session without its old operations -/

namespace CatalogSession

variable {session : CatalogSession} {old : List Nat} {number : Nat} (generation : UInt64)

@[simp] theorem tree_without : (session.without old generation).tree =
    session.tree.inGeneration generation := rfl

theorem lookup_without (fresh : number ∉ old) :
    (session.without old generation).waiting.lookup number =
      (session.waiting.lookup number).map (Waiting.inGeneration generation) := by
  unfold without
  induction session.waiting with
  | nil => rfl
  | cons entry rest ih =>
      obtain ⟨other, operation⟩ := entry
      simp only [decide_not] at ih ⊢
      by_cases here : number = other
      · subst here
        simp [fresh]
      · have different : (number == other) = false := beq_false_of_ne here
        by_cases aged : other ∈ old
        · simp [aged, List.lookup_cons, different, ih]
        · simp [aged, List.lookup_cons, different, ih]

theorem forget_without : (session.forget number).without old generation =
    (session.without old generation).forget number := by
  simp only [without, forget, List.filter_map, List.filter_filter, Function.comp_def, Bool.and_comm]

theorem forget_without_of_old (aged : number ∈ old) :
    (session.forget number).without old generation = session.without old generation := by
  have kept : (session.forget number).waiting.filter (fun entry => entry.1 ∉ old) =
      session.waiting.filter fun entry => entry.1 ∉ old := by
    rw [forget, List.filter_filter]
    refine List.filter_congr fun entry _ => ?_
    by_cases same : entry.1 = number <;> simp [same, aged]
  simp only [without, kept]
  rfl

theorem wait_without (fresh : number ∉ old) (operation : Waiting) :
    (session.wait number operation).without old generation =
      (session.without old generation).wait number (operation.inGeneration generation) := by
  simp [without, wait, List.filter_append, fresh]

theorem finishExpand_without {mark : FetchMark}
    (current : session.tree.generation = mark.generation) (toggling : Bool)
    (reply : Except Error (List CatalogNode)) :
    (session.without old generation).finishExpand (mark.inGeneration generation) toggling reply =
      ((session.finishExpand mark toggling reply).1.without old generation,
        (session.finishExpand mark toggling reply).2) := by
  have ended := CatalogTree.finishExpand_inGeneration current generation reply
  simp only [finishExpand, tree_without, ended]
  rfl

theorem startExpand_without (fresh : number ∉ old) (id : String) (toggling : Bool) :
    (session.without old generation).startExpand number id toggling =
      ((session.startExpand number id toggling).1.without old generation,
        (session.startExpand number id toggling).2) := by
  have begun := session.tree.startExpand_inGeneration generation id
  have begins := session.tree.startExpand_begins id
  unfold startExpand
  rw [tree_without, begun]
  generalize session.tree.startExpand id = result at begins
  cases begins with
  | loading | unknown | expanded | leaf | cached => rfl
  | fetching =>
      simp only [ExpandStart.inGeneration, wait_without generation fresh]
      rfl
  | @failing node error =>
      have ended := @finishExpand_without
        { session with tree := { session.tree with loading := session.tree.loading ++ [id] } }
        old generation ⟨id, session.tree.generation⟩ rfl toggling (.error error)
      exact congrArg (fun result => (result.1, Started.finished result.2)) ended

theorem start_without (fresh : number ∉ old) (operation : CatalogOperation) :
    (session.without old generation).start number operation =
      ((session.start number operation).1.without old generation,
        (session.start number operation).2) := by
  cases operation with
  | load => exact congrArg (·, _) (wait_without generation fresh .roots).symm
  | expand id => exact startExpand_without generation fresh id false
  | toggle id =>
      have collapsed := session.tree.collapse_inGeneration generation id
      simp only [start, tree_without, collapsed]
      cases hidden : session.tree.collapse id with
      | mk tree shown =>
          cases shown with
          | true => rfl
          | false => exact startExpand_without generation fresh id true

theorem finish_without (fresh : number ∉ old) (reply : Except Error (List CatalogNode))
    (current : ∀ mark toggling, session.waiting.lookup number = some (.children mark toggling) →
      session.tree.generation = mark.generation)
    (quiet : session.waiting.lookup number = some .roots → ∀ nodes, reply ≠ .ok nodes) :
    (session.without old generation).finish number reply =
      ((session.finish number reply).1.without old generation,
        (session.finish number reply).2) := by
  have sameEntry := @lookup_without session old number generation fresh
  unfold finish
  rw [sameEntry, ← forget_without]
  cases found : session.waiting.lookup number with
  | none => rfl
  | some operation =>
      cases operation with
      | roots =>
          cases reply with
          | ok nodes => exact absurd rfl (quiet found nodes)
          | error error => rfl
      | children mark toggling =>
          have ended := @finishExpand_without (session.forget number) old generation mark
            (current mark toggling found) toggling reply
          exact congrArg (fun result => (result.1, some result.2)) ended

theorem abandon_without (fresh : number ∉ old)
    (current : ∀ mark toggling, session.waiting.lookup number = some (.children mark toggling) →
      session.tree.generation = mark.generation) :
    (session.without old generation).abandon number =
      (session.abandon number).without old generation := by
  have sameEntry := @lookup_without session old number generation fresh
  unfold abandon
  rw [sameEntry, ← forget_without]
  cases found : session.waiting.lookup number with
  | none => rfl
  | some operation =>
      cases operation with
      | roots => rfl
      | children mark toggling =>
          have cleared :=
            CatalogTree.clearMark_inGeneration (current mark toggling found) generation
          exact congrArg (fun tree => { (session.forget number).without old generation with tree })
            cleared

theorem collapse_without (id : String) : (session.without old generation).collapse id =
    ((session.collapse id).1.without old generation, (session.collapse id).2) := by
  have collapsed := session.tree.collapse_inGeneration generation id
  simp only [collapse, tree_without, collapsed]
  rfl

/-! An operation that is taken out and whose mark is stale leaves the projection as it is. -/

theorem finish_without_of_old (aged : number ∈ old) (reply : Except Error (List CatalogNode))
    (stale : ∀ mark toggling, session.waiting.lookup number = some (.children mark toggling) →
      session.tree.generation ≠ mark.generation)
    (quiet : session.waiting.lookup number = some .roots → ∀ nodes, reply ≠ .ok nodes) :
    (session.finish number reply).1.without old generation = session.without old generation := by
  have forgotten := @forget_without_of_old session old number generation aged
  unfold finish
  cases found : session.waiting.lookup number with
  | none => rfl
  | some operation =>
      cases operation with
      | roots =>
          cases reply with
          | ok nodes => exact absurd rfl (quiet found nodes)
          | error error => exact forgotten
      | children mark toggling =>
          have unchanged : ((session.forget number).tree.finishExpand mark reply).1 =
            (session.forget number).tree :=
            CatalogTree.finishExpand_of_stale (stale mark toggling found) reply
          simp only [finishExpand, unchanged]
          exact forgotten

theorem abandon_without_of_old (aged : number ∈ old)
    (stale : ∀ mark toggling, session.waiting.lookup number = some (.children mark toggling) →
      session.tree.generation ≠ mark.generation) :
    (session.abandon number).without old generation = session.without old generation := by
  have forgotten := @forget_without_of_old session old number generation aged
  unfold abandon
  cases found : session.waiting.lookup number with
  | none => exact forgotten
  | some operation =>
      cases operation with
      | roots => exact forgotten
      | children mark toggling =>
          simp only [CatalogTree.clearMark_of_ne (stale mark toggling found)]
          exact forgotten

end CatalogSession

end CatalogBrowser
