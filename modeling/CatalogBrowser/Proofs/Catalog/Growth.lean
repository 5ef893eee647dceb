import CatalogBrowser.Proofs.Catalog.Forest

/-!
What becomes of the nodes of a forest while nodes without a listing get one.
-/

namespace CatalogBrowser.CatalogNode

mutual

/-- The same node, perhaps with children where it or a node below it had no listing. -/
def Grown : CatalogNode → CatalogNode → Prop
  | .node id name kind hint none, after =>
    after = .node id name kind hint none ∨
      ∃ listing, after = .node id name kind (!listing.isEmpty) (some listing)
  | .node id name kind hint (some children), after =>
    ∃ grown, after = .node id name kind hint (some grown) ∧ GrownIn children grown

def GrownIn : List CatalogNode → List CatalogNode → Prop
  | [], after => after = []
  | first :: rest, after =>
    ∃ next others, after = next :: others ∧ first.Grown next ∧ GrownIn rest others

end

theorem grownIn_refl (nodes : List CatalogNode) : GrownIn nodes nodes := by
  induction nodes using forest_induction with
  | nil => rfl
  | unlisted own name kind hint rest ih => exact ⟨_, _, rfl, Or.inl rfl, ih⟩
  | listed own name kind hint below rest belowIh restIh =>
      exact ⟨_, _, rfl, ⟨_, rfl, belowIh⟩, restIh⟩

theorem length_of_grownIn {before after : List CatalogNode} (grown : GrownIn before after) :
    after.length = before.length := by
  induction before generalizing after with
  | nil => exact congrArg List.length grown
  | cons first rest ih =>
      obtain ⟨next, others, rfl, _, restGrown⟩ := grown
      simp [ih restGrown]

theorem grownIn_trans {first second third : List CatalogNode} (before : GrownIn first second)
    (after : GrownIn second third) : GrownIn first third := by
  induction first using forest_induction generalizing second third with
  | nil =>
      obtain rfl : second = [] := before
      exact after
  | unlisted own name kind hint rest ih =>
      obtain ⟨_, _, rfl, grown, restGrown⟩ := before
      obtain ⟨_, _, rfl, later, restLater⟩ := after
      refine ⟨_, _, rfl, ?_, ih restGrown restLater⟩
      rcases grown with rfl | ⟨listing, rfl⟩
      · exact later
      · obtain ⟨more, rfl, listingGrown⟩ := later
        have same : more.isEmpty = listing.isEmpty := by
          rw [Bool.eq_iff_iff, List.isEmpty_iff_length_eq_zero, List.isEmpty_iff_length_eq_zero,
            length_of_grownIn listingGrown]
        exact Or.inr ⟨more, by rw [same]⟩
  | listed own name kind hint below rest belowIh restIh =>
      obtain ⟨_, _, rfl, ⟨_, rfl, belowGrown⟩, restGrown⟩ := before
      obtain ⟨_, _, rfl, ⟨_, rfl, belowLater⟩, restLater⟩ := after
      exact ⟨_, _, rfl, ⟨_, rfl, belowIh belowGrown belowLater⟩, restIh restGrown restLater⟩

theorem grownIn_spreadIn {id : String} {nodes : List CatalogNode} (unlisted : Unlisted id nodes)
    (new : List CatalogNode) : GrownIn nodes (spreadIn id new nodes) := by
  induction nodes using forest_induction with
  | nil => rfl
  | unlisted own name kind hint rest ih =>
      rw [spreadIn_cons_none]
      refine ⟨_, _, rfl, ?_, ih (unlisted_cons_none.mp unlisted)⟩
      split
      · exact Or.inr ⟨new, rfl⟩
      · exact Or.inl rfl
  | listed own name kind hint below rest belowIh restIh =>
      obtain ⟨different, belowUnlisted, restUnlisted⟩ := unlisted_cons_some.mp unlisted
      rw [spreadIn_cons_some different]
      exact ⟨_, _, rfl, ⟨_, rfl, belowIh belowUnlisted⟩, restIh restUnlisted⟩

theorem exists_grown {before after : List CatalogNode} (grown : GrownIn before after)
    {node : CatalogNode} (member : node ∈ allIn before) :
    ∃ later ∈ allIn after, later.id = node.id ∧ node.Grown later := by
  induction before using forest_induction generalizing after with
  | nil => simp at member
  | unlisted own name kind hint rest ih =>
      obtain ⟨next, others, rfl, first, restGrown⟩ := grown
      have inside : ∀ later, later ∈ allIn others → later ∈ allIn (next :: others) :=
        fun later present => List.mem_append_right _ present
      rcases List.mem_cons.mp member with rfl | later
      · refine ⟨next, ?_, ?_, first⟩
        · rcases next with ⟨_, _, _, _, _⟩
          exact List.mem_append_left _ List.mem_cons_self
        · rcases first with rfl | ⟨listing, rfl⟩ <;> rfl
      · obtain ⟨grownNode, present, same, grows⟩ := ih restGrown later
        exact ⟨grownNode, inside _ present, same, grows⟩
  | listed own name kind hint below rest belowIh restIh =>
      obtain ⟨_, others, rfl, ⟨belowAfter, rfl, belowGrown⟩, restGrown⟩ := grown
      rw [allIn_listed, List.mem_cons, List.mem_append] at member
      rw [allIn_listed]
      rcases member with rfl | inBelow | inRest
      · exact ⟨_, List.mem_cons_self, rfl, ⟨_, rfl, belowGrown⟩⟩
      · obtain ⟨later, present, same, grows⟩ := belowIh belowGrown inBelow
        exact ⟨later, by simp [present], same, grows⟩
      · obtain ⟨later, present, same, grows⟩ := restIh restGrown inRest
        exact ⟨later, by simp [present], same, grows⟩

theorem findIn?_of_grownIn {before after : List CatalogNode} (grown : GrownIn before after)
    (nodup : (idsIn after).Nodup) {id : String} {node : CatalogNode}
    (found : findIn? id before = some node) :
    ∃ later, findIn? id after = some later ∧ node.Grown later := by
  obtain ⟨member, rfl⟩ := mem_allIn_of_findIn? found
  obtain ⟨later, present, same, grows⟩ := exists_grown grown member
  exact ⟨later, by rw [← same]; exact findIn?_of_mem nodup present, grows⟩

theorem children_of_grown {node later : CatalogNode} (grown : node.Grown later)
    {listing : List CatalogNode} (listed : node.children = some listing) :
    ∃ children, later.children = some children ∧ GrownIn listing children := by
  rcases node with ⟨own, name, kind, hint, _ | below⟩
  · simp [children] at listed
  · obtain rfl : below = listing := Option.some.inj listed
    obtain ⟨after, rfl, belowGrown⟩ := grown
    exact ⟨after, rfl, belowGrown⟩

end CatalogBrowser.CatalogNode
