import CatalogBrowser.Proofs.ConceptTree.Construction
import CatalogBrowser.Proofs.ConceptTree.Groups
import Mathlib.Data.List.Chain
import Mathlib.Logic.Relation

/-!
The displayed tree is the unfolding of its links: the ways down its branches are the walks that
start at a root, go on to children and stop at the latest where they meet a concept again.
-/

namespace CatalogBrowser

namespace Branch

/-- A way down from some branches, by the ids on it, to the branch where it stops. -/
inductive Leads : List Branch → List String → Branch → Prop
  | here {branches branch} : branch ∈ branches → Leads branches [branch.id] branch
  | deeper {branches branch ids last} : branch ∈ branches → Leads branch.children ids last →
      Leads branches (branch.id :: ids) last

theorem not_leads_nil {ids : List String} {last : Branch} : ¬ Leads [] ids last := by
  intro leads
  cases leads with
  | here member => simp at member
  | deeper member => simp at member

end Branch

namespace ConceptTree

/-- A walk from a root of a group to children, on which only the last concept may be there twice. -/
structure Unfolds (tree : ConceptTree) (group : Option SourceId) (path : List Iri) : Prop where
  starts : ∃ root ∈ path.head?, root ∈ tree.roots ∧ tree.groupOf? root = group
  linked : path.IsChain fun parent child => child ∈ tree.children parent
  fresh : path.dropLast.Nodup

section

variable {tree : ConceptTree}

/-! Ways down from a list of concepts -/

/-- A walk that starts in `iris`, passes `front` and stops, without passing anything twice. -/
def Descends (tree : ConceptTree) : List Iri → List Iri → List Iri → Iri → Prop
  | _, iris, [], stop => stop ∈ iris
  | above, iris, first :: rest, stop => first ∈ iris ∧ first ∉ above ∧
      tree.Descends (first :: above) (tree.children first) rest stop

theorem descends_iff {above iris front : List Iri} {stop : Iri} :
    tree.Descends above iris front stop ↔
      (∃ first ∈ (front ++ [stop]).head?, first ∈ iris) ∧
        (front ++ [stop]).IsChain (fun parent child => child ∈ tree.children parent) ∧
        front.Nodup ∧ ∀ iri ∈ front, iri ∉ above := by
  induction front generalizing above iris with
  | nil => simp [Descends]
  | cons first rest ih =>
      obtain ⟨next, head⟩ : ∃ next, (rest ++ [stop]).head? = some next := by
        cases rest <;> simp
      rw [Descends, ih, List.cons_append, List.isChain_cons, List.nodup_cons]
      simp only [List.head?_cons, head, Option.mem_some_iff, exists_eq_left', forall_eq',
        List.mem_cons, not_or, forall_eq_or_imp]
      constructor
      · rintro ⟨member, fresh, goesOn, chain, nodup, apart⟩
        exact ⟨member, ⟨goesOn, chain⟩, ⟨fun again => (apart first again).1 rfl, nodup⟩, fresh,
          fun iri passed => (apart iri passed).2⟩
      · rintro ⟨member, ⟨goesOn, chain⟩, ⟨once, nodup⟩, fresh, apart⟩
        exact ⟨member, fresh, goesOn, chain, nodup,
          fun iri passed => ⟨fun same => once (same ▸ passed), apart iri passed⟩⟩

theorem descends_of_leads {above iris : List Iri} {ids : List String} {last : Branch}
    (leads : Branch.Leads (iris.filterMap (tree.branchAt? above)) ids last) :
    ∃ front stop, ids = (front ++ [stop]).map Iri.text ∧ tree.Descends above iris front stop ∧
      tree.branchAt? (front.reverse ++ above) stop = some last := by
  generalize drawn : iris.filterMap (tree.branchAt? above) = branches at leads
  induction leads generalizing above iris with
  | @here branches branch member =>
      subst drawn
      obtain ⟨iri, listed, found⟩ := List.mem_filterMap.mp member
      exact ⟨[], iri, by simp [id_of_branchAt? found], listed, found⟩
  | @deeper branches branch ids last member leads ih =>
      subst drawn
      obtain ⟨iri, listed, found⟩ := List.mem_filterMap.mp member
      obtain ⟨concept, _, rfl⟩ := branchAt?_eq_some found
      by_cases again : iri ∈ above
      · rw [Branch.children, if_pos again] at leads
        exact absurd leads Branch.not_leads_nil
      · rw [Branch.children, if_neg again] at ih
        obtain ⟨front, stop, rfl, goesOn, ends⟩ := ih rfl
        refine ⟨iri :: front, stop, rfl, ⟨listed, again, goesOn⟩, ?_⟩
        simpa using ends

theorem leads_of_descends (inside : ∀ iri child, child ∈ tree.children iri → child ∈ tree.order)
    {above iris front : List Iri} {stop : Iri} (listed : ∀ iri ∈ iris, iri ∈ tree.order)
    (descends : tree.Descends above iris front stop) :
    ∃ last, tree.branchAt? (front.reverse ++ above) stop = some last ∧
      Branch.Leads (iris.filterMap (tree.branchAt? above)) ((front ++ [stop]).map Iri.text)
        last := by
  induction front generalizing above iris with
  | nil =>
      obtain ⟨branch, drawn⟩ := exists_branchAt? (listed stop descends) above
      refine ⟨branch, drawn, ?_⟩
      have here := Branch.Leads.here (List.mem_filterMap.mpr ⟨stop, descends, drawn⟩)
      simpa [id_of_branchAt? drawn] using here
  | cons first rest ih =>
      obtain ⟨member, fresh, goesOn⟩ := descends
      obtain ⟨branch, drawn⟩ := exists_branchAt? (listed first member) above
      obtain ⟨last, ends, leads⟩ := ih (inside first) goesOn
      refine ⟨last, by simpa using ends, ?_⟩
      obtain ⟨concept, _, rfl⟩ := branchAt?_eq_some drawn
      refine Branch.Leads.deeper (List.mem_filterMap.mpr ⟨first, member, drawn⟩) ?_
      rwa [Branch.children, if_neg fresh]

theorem branch_of_leads {ids : List String} {last : Branch}
    (leads : Branch.Leads tree.view ids last) :
    (∃ source, tree.branchOf? (.source source) = some last) ∨
      ∃ above iri, tree.branchAt? above iri = some last := by
  have below : ∀ {above iris : List Iri} {ids : List String},
      Branch.Leads (iris.filterMap (tree.branchAt? above)) ids last →
        ∃ above iri, tree.branchAt? above iri = some last := by
    intro above iris ids leads
    obtain ⟨front, stop, _, _, drawn⟩ := descends_of_leads leads
    exact ⟨_, stop, drawn⟩
  rw [view_eq] at leads
  cases leads with
  | here member =>
      obtain ⟨node, _, drawn⟩ := List.mem_filterMap.mp member
      cases node with
      | source source => exact Or.inl ⟨source, drawn⟩
      | concept iri => exact Or.inr ⟨[], iri, drawn⟩
  | deeper member leads =>
      obtain ⟨node, _, drawn⟩ := List.mem_filterMap.mp member
      refine Or.inr ?_
      cases node with
      | source source =>
          obtain rfl := Option.some.inj drawn
          exact below leads
      | concept iri =>
          obtain ⟨concept, _, rfl⟩ := branchAt?_eq_some drawn
          by_cases again : iri ∈ []
          · simp at again
          · rw [Branch.children, if_neg again] at leads
            exact below leads

/-! Reachable concepts -/

theorem exists_fresh_walk {root iri : Iri}
    (reach : Relation.ReflTransGen (fun parent child => child ∈ tree.children parent) root iri) :
    ∃ front, (front ++ [iri]).head? = some root ∧
      (front ++ [iri]).IsChain (fun parent child => child ∈ tree.children parent) ∧
      (front ++ [iri]).Nodup := by
  induction reach with
  | refl => exact ⟨[], rfl, List.isChain_singleton _, List.nodup_singleton _⟩
  | @tail last next _ edge ih =>
      obtain ⟨front, starts, chain, nodup⟩ := ih
      by_cases again : next ∈ front ++ [last]
      · obtain ⟨before, after, parts⟩ := List.append_of_mem again
        have shorter : before ++ [next] <+: front ++ [last] := ⟨after, by simp [parts]⟩
        refine ⟨before, ?_, chain.prefix shorter, nodup.sublist shorter.sublist⟩
        rw [← starts, parts]
        cases before <;> rfl
      · refine ⟨front ++ [last], ?_, ?_, ?_⟩
        · rw [← starts]
          cases front <;> rfl
        · refine chain.append (List.isChain_singleton _) ?_
          simpa using edge
        · refine nodup.append (List.nodup_singleton _) ?_
          intro other passed same
          exact again (List.mem_singleton.mp same ▸ passed)

theorem exists_root_or_cycle_above (linked : WellLinked tree.order tree.parents tree.children)
    {met : List Iri} {iri : Iri} (member : iri ∈ tree.order) (fresh : iri ∉ met)
    (below : ∀ other ∈ met,
      Relation.TransGen (fun parent child => child ∈ tree.children parent) iri other) :
    (∃ root ∈ tree.roots,
      Relation.ReflTransGen (fun parent child => child ∈ tree.children parent) root iri) ∨
    ∃ other, Relation.TransGen (fun parent child => child ∈ tree.children parent) other other ∧
      Relation.ReflTransGen (fun parent child => child ∈ tree.children parent) other iri := by
  cases parents : tree.parents iri with
  | nil =>
      have root : iri ∈ tree.roots := List.mem_filter.mpr ⟨member, by simp [parents]⟩
      exact Or.inl ⟨iri, root, Relation.ReflTransGen.refl⟩
  | cons parent rest =>
      have above : parent ∈ tree.parents iri := by simp [parents]
      have edge : iri ∈ tree.children parent := (linked.converse parent iri).mpr above
      by_cases again : parent ∈ iri :: met
      · refine Or.inr ⟨parent, ?_, Relation.ReflTransGen.single edge⟩
        rcases List.mem_cons.mp again with same | seen
        · subst same
          exact Relation.TransGen.single edge
        · exact Relation.TransGen.head edge (below parent seen)
      · rcases exists_root_or_cycle_above linked (linked.inside iri parent above) again (by
          intro other seen
          rcases List.mem_cons.mp seen with same | lower
          · subst same
            exact Relation.TransGen.single edge
          · exact Relation.TransGen.head edge (below other lower)) with
          ⟨root, isRoot, reach⟩ | ⟨other, around, reach⟩
        · exact Or.inl ⟨root, isRoot, reach.tail edge⟩
        · exact Or.inr ⟨other, around, reach.tail edge⟩
termination_by (unmet tree.order met).length
decreasing_by exact unmet_cons_lt member fresh

theorem exists_root_or_cycle (linked : WellLinked tree.order tree.parents tree.children)
    {met : List Iri} {iri : Iri} (member : iri ∈ tree.order) (fresh : iri ∉ met)
    (below : ∀ other ∈ met,
      Relation.TransGen (fun parent child => child ∈ tree.children parent) iri other) :
    (∃ root ∈ tree.roots,
      Relation.ReflTransGen (fun parent child => child ∈ tree.children parent) root iri) ∨
    ∃ other, Relation.TransGen (fun parent child => child ∈ tree.children parent) other other :=
  (exists_root_or_cycle_above linked member fresh below).imp_right
    fun ⟨other, around, _⟩ => ⟨other, around⟩

def Occurs (tree : ConceptTree) (iri : Iri) : Prop :=
  ∃ group front last,
    Branch.Leads (Branch.inGroup tree.view group) ((front ++ [iri]).map Iri.text) last

theorem descends_roots_iff {group : Option SourceId} {front : List Iri} {stop : Iri} :
    tree.Descends [] (tree.roots.filter fun iri => tree.groupOf? iri = group) front stop ↔
      tree.Unfolds group (front ++ [stop]) := by
  rw [descends_iff]
  simp only [List.mem_filter, decide_eq_true_eq, List.not_mem_nil, not_false_eq_true,
    implies_true, and_true]
  constructor
  · rintro ⟨starts, linked, fresh⟩
    exact ⟨starts, linked, by simpa using fresh⟩
  · rintro ⟨starts, linked, fresh⟩
    exact ⟨starts, linked, by simpa using fresh⟩

theorem occurs_iff
    (unfolding : ∀ group path, (∃ last, Branch.Leads (Branch.inGroup tree.view group)
      (path.map Iri.text) last) ↔ tree.Unfolds group path) {iri : Iri} :
    tree.Occurs iri ↔ ∃ root ∈ tree.roots,
      Relation.ReflTransGen (fun parent child => child ∈ tree.children parent) root iri := by
  constructor
  · rintro ⟨group, front, last, leads⟩
    obtain ⟨⟨root, first, isRoot, _⟩, linked, _⟩ := (unfolding group _).mp ⟨last, leads⟩
    have reach := List.relationReflTransGen_of_exists_isChain _ linked (by simp)
    rw [List.getLast_append_singleton, (List.head_eq_iff_head?_eq_some _).mpr first] at reach
    exact ⟨root, isRoot, reach⟩
  · rintro ⟨root, isRoot, reach⟩
    obtain ⟨front, starts, linked, nodup⟩ := exists_fresh_walk reach
    have unfolds : tree.Unfolds (tree.groupOf? root) (front ++ [iri]) :=
      ⟨⟨root, starts, isRoot, rfl⟩, linked, nodup.sublist (List.dropLast_sublist _)⟩
    obtain ⟨last, leads⟩ := (unfolding _ _).mpr unfolds
    exact ⟨_, front, last, leads⟩

end

theorem conceptType_of_get? {input : List Concept} {options : DisplayOptions} {iri : Iri}
    {concept : Concept} (found : (ofConcepts input options).get? iri = some concept) :
    concept.conceptType ≠ .sourceGroup := by
  have loaded : concept ∈ loadedOf options input := List.mem_of_find?_eq_some found
  rw [loadedOf_eq_firstShown] at loaded
  obtain ⟨⟨_, place⟩, kept, rfl⟩ := List.mem_map.mp loaded
  have shown := (List.mem_filter.mp kept).2
  simp only [Bool.and_eq_true] at shown
  intro grouped
  have hidden := shown.1
  rw [grouped] at hidden
  exact Bool.false_ne_true hidden

/-- The displayed tree is the unfolding of its first layer, cut where a walk meets a concept again.
-/
theorem view_unfolds (input : List Concept) (options : DisplayOptions) :
    let tree := ofConcepts input options
    List.Forall₂ (tree.Shows []) tree.firstLayer tree.view ∧
    (∀ group path,
      (∃ last, Branch.Leads (Branch.inGroup tree.view group) (path.map Iri.text) last) ↔
        tree.Unfolds group path) ∧
    (∀ group ids last, Branch.Leads (Branch.inGroup tree.view group) ids last →
      ∃ front stop, ids = (front ++ [stop]).map Iri.text ∧ tree.Shows front (.concept stop) last ∧
        (last.children = [] ↔ tree.children stop = [] ∨ stop ∈ front)) ∧
    (∀ iri ∈ tree.order, tree.Occurs iri ↔ ∃ root ∈ tree.roots,
      Relation.ReflTransGen (fun parent child => child ∈ tree.children parent) root iri) ∧
    (∀ iri ∈ tree.order, tree.Occurs iri ∨ ∃ other,
      Relation.TransGen (fun parent child => parent ∈ tree.parents child) other other) := by
  intro tree
  have linked : WellLinked tree.order tree.parents tree.children :=
    displayLinks_wellLinked input options
  have inside : ∀ iri child, child ∈ tree.children iri → child ∈ tree.order :=
    fun iri child member => (linked.ordered iri).subset member
  have groups := @inGroup_view tree fun _ _ => conceptType_of_get?
  have rooted : ∀ group, ∀ iri ∈ tree.roots.filter fun root => tree.groupOf? root = group,
      iri ∈ tree.order :=
    fun group iri member => mem_order_of_mem_roots (List.mem_of_mem_filter member)
  have unfolding : ∀ group path,
      (∃ last, Branch.Leads (Branch.inGroup tree.view group) (path.map Iri.text) last) ↔
        tree.Unfolds group path := by
    intro group path
    rw [groups]
    constructor
    · rintro ⟨last, leads⟩
      obtain ⟨front, stop, same, descends, _⟩ := descends_of_leads leads
      rw [Iri.text_injective.list_map same]
      exact descends_roots_iff.mp descends
    · intro unfolds
      obtain ⟨front, stop, rfl⟩ : ∃ front stop, path = front ++ [stop] := by
        obtain ⟨root, starts, _⟩ := unfolds.starts
        rcases List.eq_nil_or_concat path with rfl | parts
        · simp at starts
        · simpa using parts
      obtain ⟨last, _, leads⟩ :=
        leads_of_descends inside (rooted group) (descends_roots_iff.mpr unfolds)
      exact ⟨last, leads⟩
  refine ⟨view_shows inside, unfolding, ?_, fun iri _ => occurs_iff unfolding, ?_⟩
  · intro group ids last leads
    rw [groups] at leads
    obtain ⟨front, stop, same, _, drawn⟩ := descends_of_leads leads
    rw [List.append_nil] at drawn
    have shows : tree.Shows front (.concept stop) last := by
      simpa only [Shows, List.mem_reverse] using shows_of_branchAt? inside drawn
    exact ⟨front, stop, same, shows, children_eq_nil_of_shows shows⟩
  · intro iri member
    rw [occurs_iff unfolding]
    rcases exists_root_or_cycle linked member List.not_mem_nil (by simp) with reached | cycle
    · exact Or.inl reached
    · obtain ⟨other, around⟩ := cycle
      exact Or.inr ⟨other, around.lift id fun parent child => (linked.converse parent child).mp⟩

end ConceptTree

end CatalogBrowser
