import CatalogBrowser.Proofs.Lineage.Arrangement

/-!
Which relation each node of a lineage graph stands for, and which relations are drawn.  The id of
an edge is made of the texts of its ends, so two relations can share one; the first of them is
drawn then, and the others are not.
-/

namespace CatalogBrowser

namespace Text

def arrow : List Char := ['-', '>']

theorem eq_nil_or_arrow_prefix {rest first second : List Char}
    (same : arrow ++ first = rest ++ (arrow ++ second)) : rest = [] ∨ arrow <+: rest := by
  match rest, same with
  | [], _ => exact Or.inl rfl
  | [_], same => simp [arrow] at same
  | _ :: _ :: others, same =>
    simp only [arrow, List.cons_append, List.nil_append, List.cons.injEq] at same
    obtain ⟨rfl, rfl, _⟩ := same
    exact Or.inr ⟨others, rfl⟩

theorem eq_of_append_arrow {before before' after after' : List Char}
    (clear : ¬ arrow <:+: before) (clear' : ¬ arrow <:+: before')
    (same : before ++ (arrow ++ after) = before' ++ (arrow ++ after')) :
    before = before' ∧ after = after' := by
  rcases List.append_eq_append_iff.mp same with ⟨rest, longer, shifted⟩ | ⟨rest, longer, shifted⟩
  · rcases eq_nil_or_arrow_prefix shifted with rfl | begins
    · exact ⟨(longer.trans (List.append_nil _)).symm, List.append_cancel_left shifted⟩
    · exact absurd (longer ▸ List.infix_append_of_infix_right begins.isInfix) clear'
  · rcases eq_nil_or_arrow_prefix shifted with rfl | begins
    · exact ⟨longer.trans (List.append_nil _), (List.append_cancel_left shifted).symm⟩
    · exact absurd (longer ▸ List.infix_append_of_infix_right begins.isInfix) clear

theorem not_arrow_infix_append {first second : List Char} (clear : ¬ arrow <:+: first)
    (clear' : ¬ arrow <:+: second) (apart : second.head? ≠ some '>') :
    ¬ arrow <:+: first ++ second := by
  intro found
  rcases List.infix_append_iff_ne_nil.mp found with before | after | across
  · exact clear before
  · exact clear' after
  · -- the tip of an arrow across the seam begins the second text
    obtain ⟨left, right, notNil, notNil', parts, _, begins⟩ := across
    rcases left with _ | ⟨dash, _ | ⟨tip, others⟩⟩
    · exact notNil rfl
    · obtain ⟨_, rfl⟩ := List.cons.inj parts
      obtain ⟨after, rfl⟩ := begins
      exact apart rfl
    · simp only [arrow, List.cons_append, List.cons.injEq, List.nil_eq_append_iff] at parts
      exact notNil' parts.2.2.2

end Text

namespace LineageEdge

def tag (edge : LineageEdge) : List Char :=
  match edge.label with
  | some relation => '-' :: relation.name.toList
  | none => []

theorem toList_id (edge : LineageEdge) :
    edge.id.toList = edge.source.toList ++ edge.tag ++ (Text.arrow ++ edge.target.toList) := by
  have dash : "-".toList = ['-'] := by decide
  have arrow : "->".toList = Text.arrow := by decide
  rw [id, tag]
  cases edge.label <;> simp [dash, arrow]

theorem toList_name (label : PropertyRelation) : label.name.toList =
    match label with
    | .domain => ['d', 'o', 'm', 'a', 'i', 'n']
    | .range => ['r', 'a', 'n', 'g', 'e']
    | .subPropertyOf => ['s', 'u', 'b', 'P', 'r', 'o', 'p', 'e', 'r', 't', 'y', 'O', 'f'] := by
  cases label <;> decide

theorem tag_clear (edge : LineageEdge) :
    ¬ Text.arrow <:+: edge.tag ∧ edge.tag.head? ≠ some '>' := by
  rw [tag]
  cases edge.label with
  | none => decide
  | some label =>
      dsimp only
      rw [toList_name]
      cases label <;> decide

theorem label_of_append_eq {first second : List Char} {label other : PropertyRelation}
    (same : first ++ '-' :: label.name.toList = second ++ '-' :: other.name.toList) :
    label = other := by
  -- the last letter of a label tells which one it is
  have last : ('-' :: label.name.toList).getLast? = ('-' :: other.name.toList).getLast? := by
    have whole := congrArg List.getLast? same
    rwa [List.getLast?_append, List.getLast?_append, Option.or_of_isSome (by simp),
      Option.or_of_isSome (by simp)] at whole
  rw [toList_name, toList_name] at last
  cases label <;> cases other <;> simp_all

theorem tag_of_append_eq {edge other : LineageEdge} {first second : List Char}
    (alike : edge.label.isSome = other.label.isSome)
    (same : first ++ edge.tag = second ++ other.tag) : edge.tag = other.tag := by
  rw [tag, tag] at same ⊢
  cases label : edge.label <;> cases label' : other.label <;> rw [label, label'] at alike same
  case some.some => rw [label_of_append_eq same]
  case some.none => simp at alike
  case none.some => simp at alike

/-- Sources without an arrow tell the ids of edges apart that are all labelled or all not. -/
theorem ends_of_id {edge other : LineageEdge}
    (clear : ¬ Text.arrow <:+: edge.source.toList) (clear' : ¬ Text.arrow <:+: other.source.toList)
    (alike : edge.label.isSome = other.label.isSome) (same : edge.id = other.id) :
    edge.source = other.source ∧ edge.target = other.target := by
  rw [String.ext_iff, toList_id, toList_id] at same
  obtain ⟨stems, targets⟩ := Text.eq_of_append_arrow
    (Text.not_arrow_infix_append clear edge.tag_clear.1 edge.tag_clear.2)
    (Text.not_arrow_infix_append clear' other.tag_clear.1 other.tag_clear.2) same
  rw [tag_of_append_eq alike stems] at stems
  exact ⟨String.ext (List.append_cancel_right stems), String.ext targets⟩

end LineageEdge

theorem eq_toList_filter {α : Type} {items : List α} {choice : Option α} {test : α → Bool}
    (nodup : items.Nodup) (members : ∀ item, item ∈ items ↔ choice = some item ∧ test item = true) :
    items = choice.toList.filter test := by
  have alike : items.Perm (choice.toList.filter test) := by
    refine (List.perm_ext_iff_of_nodup nodup (List.Nodup.filter _ ?_)).mpr fun item => ?_
    · cases choice <;> simp
    · rw [members, List.mem_filter, Option.mem_toList]
  cases choice with
  | none => exact List.perm_nil.mp alike
  | some own =>
      rw [Option.toList_some, List.filter_singleton] at alike ⊢
      cases passes : test own with
      | true =>
          rw [passes] at alike
          exact List.perm_singleton.mp alike
      | false =>
          rw [passes] at alike
          exact List.perm_nil.mp alike

namespace LineageGraph

def parentIds (graph : LineageGraph) : List String :=
  (graph.nodes.filter fun node => node.role = .parent).map LineageNode.id

/-- The node that an edge is drawn for: the end beside the focus, and between two relatives the one
that the edge leads to. -/
def subject (graph : LineageGraph) (edge : LineageEdge) : String :=
  if edge.target = graph.focus then edge.source else edge.target

def edgesAt (graph : LineageGraph) (node : LineageNode) : List LineageEdge :=
  graph.edges.filter fun edge => graph.subject edge = node.id

end LineageGraph

namespace Lineage

def siblingSource? (hierarchy : Neighbourhood) (graph : LineageGraph) (id : String) :
    Option String :=
  let record := hierarchy.siblings.find? fun sibling => sibling.iri.text = id
  let stated := (record.map Concept.parents).getD []
  (graph.parentIds.find? fun parent => parent ∈ stated.map Iri.text).or graph.parentIds.head?

def relationOf (hierarchy : Neighbourhood) (graph : LineageGraph) (node : LineageNode) :
    Option LineageEdge :=
  match node.role with
  | .focus => none
  | .parent => some { source := node.id, target := graph.focus }
  | .child => some { source := graph.focus, target := node.id }
  | .sibling => (siblingSource? hierarchy graph node.id).map fun source =>
    { source, target := node.id, style := .dashed }
  | .parentProperty =>
    some { source := graph.focus, target := node.id, label := some .subPropertyOf }
  | .childProperty =>
    some { source := node.id, target := graph.focus, label := some .subPropertyOf }
  | .domain => some { source := graph.focus, target := node.id, label := some .domain }
  | .range | .datatype => some { source := graph.focus, target := node.id, label := some .range }

def relationsOf (hierarchy : Neighbourhood) (graph : LineageGraph) : List LineageEdge :=
  graph.nodes.filterMap (relationOf hierarchy graph)

namespace Setting

section

variable {setting : Setting}

theorem role_of_numbered {α : Type} {items : List α} {place : Nat → α → LineageGraph.Part}
    {role : LineageRole} (each : ∀ index item, (place index item).1.role = role) :
    ∀ node ∈ (items.mapIdx place).map Prod.fst, node.role = role := by
  intro node member
  obtain ⟨part, listed, rfl⟩ := List.mem_map.mp member
  obtain ⟨index, _, rfl⟩ := List.mem_mapIdx.mp listed
  exact each _ _

theorem parentIds_graph (ordinary : setting.focal.isProperty = false) :
    setting.graph.parentIds = setting.classParents.map Iri.text := by
  have nothing : ∀ nodes : List LineageNode, (∀ node ∈ nodes, node.role ≠ .parent) →
      (nodes.filter fun node => node.role = .parent) = [] := by
    intro nodes apart
    exact List.filter_eq_nil_iff.mpr fun node member => by simpa using apart node member
  have everything : ∀ nodes : List LineageNode, (∀ node ∈ nodes, node.role = .parent) →
      (nodes.filter fun node => node.role = .parent) = nodes := by
    intro nodes alike
    exact List.filter_eq_self.mpr fun node member => by simpa using alike node member
  rw [LineageGraph.parentIds, nodes_graph, added_of_class ordinary, ← partIds_parents]
  simp only [List.map_append, List.filter_append]
  rw [nothing setting.start.nodes, everything, nothing (List.map _ (List.mapIdx _ _)), nothing]
  · simp [LineageGraph.partId]
  · simp [siblingPart]
  · intro node member
    simp [role_of_numbered (fun index iri => node_role iri iri.text .child _ _) node member]
  · exact role_of_numbered fun index iri => node_role iri iri.text .parent _ _
  · simp [start]

theorem find?_sibling {sibling : Concept}
    (kept : sibling ∈ firstBy Concept.iri [] setting.classSiblings) :
    setting.hierarchy.siblings.find? (fun other => other.iri.text = sibling.iri.text) =
      some sibling := by
  have found := find?_of_mem_firstBy kept
  have aside := (List.mem_filter.mp (firstBy_sublist.subset kept)).2
  rw [classSiblings, List.find?_filter] at found
  -- the records that are left out have other identifiers
  rw [← found]
  congr 1
  funext other
  refine decide_eq_decide.mpr ⟨fun same => ?_, fun both => ?_⟩
  · rw [Iri.text_injective same]
    exact ⟨aside, decide_eq_true rfl⟩
  · exact congrArg Iri.text (of_decide_eq_true both.2)

theorem siblingSource?_graph (ordinary : setting.focal.isProperty = false) {sibling : Concept}
    (kept : sibling ∈ firstBy Concept.iri [] setting.classSiblings) :
    siblingSource? setting.hierarchy setting.graph sibling.iri.text =
      (setting.sharedParent? sibling).map Iri.text := by
  rw [siblingSource?, find?_sibling kept, parentIds_graph ordinary, List.find?_map,
    List.head?_map, sharedParent?, Option.map_or]
  simp only [Function.comp_def, Option.map_some, Option.getD_some,
    List.mem_map_of_injective Iri.text_injective]

theorem cases_added_of_class (ordinary : setting.focal.isProperty = false)
    {part : LineageGraph.Part} (member : part ∈ setting.added) :
    (∃ iri index, part = setting.parentPart iri index) ∨
      (∃ iri index, part = setting.childPart iri index) ∨
      ∃ sibling ∈ firstBy Concept.iri [] setting.classSiblings,
        ∃ index, part = setting.siblingPart sibling index := by
  rw [added_of_class ordinary, List.mem_append, List.mem_append, List.mem_mapIdx,
    List.mem_mapIdx, List.mem_map] at member
  rcases member with ⟨index, _, same⟩ | ⟨index, _, same⟩ | ⟨sibling, kept, same⟩
  · exact Or.inl ⟨_, index, same.symm⟩
  · exact Or.inr (Or.inl ⟨_, index, same.symm⟩)
  · exact Or.inr (Or.inr ⟨sibling, kept, _, same.symm⟩)

theorem cases_added_of_property (property : setting.focal.isProperty = true)
    {part : LineageGraph.Part} (member : part ∈ setting.added) :
    (∃ iri index, part = setting.superPropertyPart iri index) ∨
      (∃ iri index, part = setting.subPropertyPart iri index) ∨
      (∃ domain, part = setting.domainPart domain) ∨ ∃ range, part = setting.rangePart range := by
  have listed := firstBy_sublist.subset member
  rw [parts, if_pos property, propertyParts] at listed
  simp only [List.mem_append, List.mem_mapIdx, Option.mem_toList, Option.map_eq_some_iff]
    at listed
  rcases listed with ((⟨index, _, same⟩ | ⟨index, _, same⟩) | ⟨domain, _, same⟩) | ⟨range, _, same⟩
  · exact Or.inl ⟨_, index, same.symm⟩
  · exact Or.inr (Or.inl ⟨_, index, same.symm⟩)
  · exact Or.inr (Or.inr (Or.inl ⟨domain, same.symm⟩))
  · exact Or.inr (Or.inr (Or.inr ⟨range, same.symm⟩))

theorem relationOf_added {part : LineageGraph.Part} (member : part ∈ setting.added) :
    relationOf setting.hierarchy setting.graph part.1 = part.2 := by
  cases property : setting.focal.isProperty with
  | false =>
      rcases cases_added_of_class property member with
        ⟨iri, index, rfl⟩ | ⟨iri, index, rfl⟩ | ⟨sibling, kept, index, rfl⟩
      · simp [relationOf, parentPart, focus_graph]
      · simp [relationOf, childPart, focus_graph]
      · simp [relationOf, siblingPart, siblingSource?_graph property kept, Option.map_map,
          Function.comp_def]
  | true =>
      rcases cases_added_of_property property member with
        ⟨iri, index, rfl⟩ | ⟨iri, index, rfl⟩ | ⟨domain, rfl⟩ | ⟨range, rfl⟩
      · simp [relationOf, superPropertyPart, focus_graph]
      · simp [relationOf, subPropertyPart, focus_graph]
      · simp [relationOf, domainPart, focus_graph]
      · cases literal : range.isLiteralType <;> simp [relationOf, rangePart, literal, focus_graph]

theorem relationsOf_graph : relationsOf setting.hierarchy setting.graph =
    setting.added.filterMap Prod.snd := by
  have focus : setting.start.nodes.filterMap (relationOf setting.hierarchy setting.graph) = [] :=
    rfl
  rw [relationsOf, nodes_graph, List.filterMap_append, focus, List.nil_append, List.filterMap_map]
  exact List.filterMap_congr fun part member => relationOf_added member

theorem edges_eq_firstBy : setting.graph.edges =
    firstBy LineageEdge.id [] (relationsOf setting.hierarchy setting.graph) := by
  rw [relationsOf_graph, edges_graph]

theorem isSome_label {edge : LineageEdge}
    (member : edge ∈ relationsOf setting.hierarchy setting.graph) :
    edge.label.isSome = setting.focal.isProperty := by
  rw [relationsOf_graph, List.mem_filterMap] at member
  obtain ⟨part, kept, drawn⟩ := member
  cases property : setting.focal.isProperty with
  | false =>
      rcases cases_added_of_class property kept with
        ⟨iri, index, rfl⟩ | ⟨iri, index, rfl⟩ | ⟨sibling, kept, index, rfl⟩
      · cases drawn
        rfl
      · cases drawn
        rfl
      · obtain ⟨parent, _, rfl⟩ := Option.map_eq_some_iff.mp drawn
        rfl
  | true =>
      rcases cases_added_of_property property kept with
        ⟨iri, index, rfl⟩ | ⟨iri, index, rfl⟩ | ⟨domain, rfl⟩ | ⟨range, rfl⟩ <;>
      · cases drawn
        rfl

theorem subject_relation {node : LineageNode} {edge : LineageEdge}
    (member : node ∈ setting.graph.nodes)
    (relation : relationOf setting.hierarchy setting.graph node = some edge) :
    setting.graph.subject edge = node.id := by
  have ends : edge.target = setting.graph.focus ∧ edge.source = node.id ∨
      edge.target = node.id := by
    unfold relationOf at relation
    split at relation
    -- only a sibling may be without a relation
    case h_4 =>
      obtain ⟨source, _, rfl⟩ := Option.map_eq_some_iff.mp relation
      exact Or.inr rfl
    all_goals cases relation
    all_goals simp
  rw [LineageGraph.subject]
  rcases ends with ⟨toFocus, fromNode⟩ | toNode
  · rw [if_pos toFocus, fromNode]
  · rw [toNode, if_neg]
    intro focal
    rw [nodes_graph, List.mem_append] at member
    rcases member with start | added
    · obtain rfl := List.mem_singleton.mp start
      cases relation
    · have apart : node.id ∈ setting.added.map LineageGraph.partId := by
        obtain ⟨part, kept, rfl⟩ := List.mem_map.mp added
        exact List.mem_map_of_mem kept
      exact (mem_map_firstBy.mp apart).2 (List.mem_singleton.mpr (focal.trans setting.focus_graph))

theorem mem_edgesAt {node : LineageNode} (member : node ∈ setting.graph.nodes)
    (edge : LineageEdge) : edge ∈ setting.graph.edgesAt node ↔
      relationOf setting.hierarchy setting.graph node = some edge ∧
        ∀ other ∈ setting.graph.edges, other.id = edge.id → other = edge := by
  have drawn : edge ∈ relationsOf setting.hierarchy setting.graph →
      (edge ∈ setting.graph.edges ↔
        ∀ other ∈ setting.graph.edges, other.id = edge.id → other = edge) := by
    intro wanted
    rw [edges_eq_firstBy]
    exact mem_firstBy_iff_alone wanted List.not_mem_nil
  rw [LineageGraph.edgesAt, List.mem_filter, decide_eq_true_eq]
  constructor
  · rintro ⟨listed, subject⟩
    have wanted : edge ∈ relationsOf setting.hierarchy setting.graph := by
      rw [edges_eq_firstBy] at listed
      exact firstBy_sublist.subset listed
    obtain ⟨owner, member', relation⟩ := List.mem_filterMap.mp wanted
    rw [subject_relation member' relation] at subject
    obtain rfl := List.inj_on_of_nodup_map setting.nodup_ids_graph member' member subject
    exact ⟨relation, (drawn wanted).mp listed⟩
  · rintro ⟨relation, alone⟩
    have wanted : edge ∈ relationsOf setting.hierarchy setting.graph :=
      List.mem_filterMap.mpr ⟨node, member, relation⟩
    exact ⟨(drawn wanted).mpr alone, subject_relation member relation⟩

theorem edgesAt_graph {node : LineageNode} (member : node ∈ setting.graph.nodes) :
    setting.graph.edgesAt node =
      (relationOf setting.hierarchy setting.graph node).toList.filter fun edge =>
        ∀ other ∈ setting.graph.edges, other.id = edge.id → other = edge := by
  have nodup : setting.graph.edges.Nodup := by
    refine List.Nodup.of_map LineageEdge.id ?_
    rw [edges_eq_firstBy]
    exact nodup_map_firstBy
  refine eq_toList_filter (nodup.filter _) fun edge => ?_
  rw [decide_eq_true_eq]
  exact mem_edgesAt member edge

theorem eq_of_id {edge other : LineageEdge}
    (clear : ∀ edge ∈ relationsOf setting.hierarchy setting.graph,
      ¬ Text.arrow <:+: edge.source.toList)
    (wanted : edge ∈ relationsOf setting.hierarchy setting.graph)
    (wanted' : other ∈ relationsOf setting.hierarchy setting.graph) (same : other.id = edge.id) :
    other = edge := by
  obtain ⟨source, target⟩ := LineageEdge.ends_of_id (clear other wanted') (clear edge wanted)
    ((isSome_label wanted').trans (isSome_label wanted).symm) same
  obtain ⟨node, member, relation⟩ := List.mem_filterMap.mp wanted
  obtain ⟨node', member', relation'⟩ := List.mem_filterMap.mp wanted'
  have subject : setting.graph.subject other = setting.graph.subject edge := by
    rw [LineageGraph.subject, LineageGraph.subject, source, target]
  rw [subject_relation member relation, subject_relation member' relation'] at subject
  obtain rfl := List.inj_on_of_nodup_map setting.nodup_ids_graph member' member subject
  exact Option.some.inj (relation'.symm.trans relation)

end

end Setting

/-- A node has its relation drawn once, unless another edge has the same id. -/
theorem relations_drawn (hierarchy : Neighbourhood) (lookup : ConceptFinder) (layout : Geometry) :
    let graph := graphOf hierarchy lookup layout
    (∀ edge ∈ graph.edges, ∃ node ∈ graph.nodes, relationOf hierarchy graph node = some edge) ∧
    (∀ node ∈ graph.nodes, graph.edgesAt node =
      (relationOf hierarchy graph node).toList.filter fun edge =>
        ∀ other ∈ graph.edges, other.id = edge.id → other = edge) ∧
    ((∀ edge ∈ relationsOf hierarchy graph, ¬ Text.arrow <:+: edge.source.toList) →
      ∀ node ∈ graph.nodes, graph.edgesAt node = (relationOf hierarchy graph node).toList) := by
  intro graph
  let setting : Setting := ⟨hierarchy, lookup, layout⟩
  have wanted : ∀ edge ∈ graph.edges, edge ∈ relationsOf hierarchy graph := by
    intro edge drawn
    have listed : edge ∈ setting.graph.edges := drawn
    rw [Setting.edges_eq_firstBy] at listed
    exact firstBy_sublist.subset listed
  refine ⟨fun edge drawn => List.mem_filterMap.mp (wanted edge drawn), ?_, ?_⟩
  · intro node member
    exact Setting.edgesAt_graph member
  · intro clear node member
    refine (Setting.edgesAt_graph member).trans (List.filter_eq_self.mpr ?_)
    intro edge relation
    refine decide_eq_true fun other drawn same => ?_
    have own : edge ∈ relationsOf hierarchy graph :=
      List.mem_filterMap.mpr ⟨node, member, Option.mem_toList.mp relation⟩
    exact Setting.eq_of_id clear own (wanted other drawn) same

theorem relations_drawn_around_class :
    let p : Iri := ⟨"P", by decide⟩
    let q : Iri := ⟨"Q", by decide⟩
    let focal : Concept := {
      iri := ⟨"F", by decide⟩
      conceptType := .ontologyClass
      parents := [p, q]
      children := [⟨"C", by decide⟩] }
    let sibling : Concept := {
      iri := ⟨"S", by decide⟩
      conceptType := .ontologyClass
      parents := [q] }
    let hierarchy : Neighbourhood := { concept := focal, siblings := [sibling] }
    let graph := graphOf hierarchy (fun _ => none) {}
    (∀ edge ∈ relationsOf hierarchy graph, ¬ Text.arrow <:+: edge.source.toList) ∧
      graph.nodes.map graph.edgesAt = [[], [{ source := "P", target := "F" }],
        [{ source := "Q", target := "F" }], [{ source := "F", target := "C" }],
        [{ source := "Q", target := "S", style := .dashed }]] := by
  intro p q focal sibling hierarchy graph
  have clear : ∀ edge ∈ relationsOf hierarchy graph, ¬ Text.arrow <:+: edge.source.toList := by
    decide
  have drawn := (relations_drawn hierarchy (fun _ => none) {}).2.2 clear
  refine ⟨clear, (List.map_congr_left drawn).trans ?_⟩
  decide

/-- Two relations of a class have one id.  The one of its child comes last and is not drawn. -/
theorem relation_of_child_lost :
    let focal : Concept := {
      iri := ⟨"x", by decide⟩
      conceptType := .ontologyClass
      parents := [⟨"x->y", by decide⟩]
      children := [⟨"y->x", by decide⟩] }
    let hierarchy : Neighbourhood := { concept := focal }
    let graph := graphOf hierarchy (fun _ => none) {}
    graph.nodes.map (fun node => (node.id, node.role)) =
        [("x", .focus), ("x->y", .parent), ("y->x", .child)] ∧
      graph.edges = [{ source := "x->y", target := "x" }] ∧
      ¬ ∀ node ∈ graph.nodes, graph.edgesAt node = (relationOf hierarchy graph node).toList := by
  intro focal hierarchy graph
  refine ⟨by decide, by decide, by decide⟩

end Lineage

end CatalogBrowser
