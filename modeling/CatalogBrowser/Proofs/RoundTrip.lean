import CatalogBrowser.Catalog.Node
import CatalogBrowser.Concept.Groups
import CatalogBrowser.Concept.Hierarchy
import CatalogBrowser.Proofs.Catalog.Forest
import CatalogBrowser.Proofs.Json.Members

/-!
Concepts, neighbourhoods, groups and catalog nodes read back as what was written.

The readers are lenient and drop what they cannot use; they find nothing to drop in what was
written.
-/

namespace CatalogBrowser

open Json (Rearranges)

theorem mapM_map_of_reads {α β : Type} {encode : α → Json} {decode : Json → Option β}
    {wrap : α → β} (reads : ∀ item, decode (encode item) = some (wrap item)) (items : List α) :
    (items.map encode).mapM decode = some (items.map wrap) := by
  induction items with
  | nil => rfl
  | cons item rest ih =>
      rw [List.map_cons, List.mapM_cons, reads, ih]
      rfl

theorem filterMap_map_of_reads {α : Type} {encode : α → Json} {decode : Json → Option α}
    (reads : ∀ item, decode (encode item) = some item) (items : List α) :
    (items.map encode).filterMap decode = items := by
  induction items with
  | nil => rfl
  | cons item rest ih => rw [List.map_cons, List.filterMap_cons_some (reads item), ih]

theorem ConceptType.ofJson?_toJson (kind : ConceptType) : ofJson? kind.toJson = some kind :=
  ofName?_name kind

theorem CatalogKind.ofJson?_name (kind : CatalogKind) :
    ofJson? (.string kind.name) = some kind := by
  cases kind <;> decide

namespace Iri

theorem ofJson?_toJson (iri : Iri) : ofJson? iri.toJson = some iri := ofText?_text iri

theorem reference?_toJson (iri : Iri) : reference? iri.toJson = some (some iri) :=
  congrArg some (ofText?_text iri)

theorem references?_toJson (iris : List Iri) :
    references? (.array (iris.map toJson)) = some iris := by
  rw [references?, mapM_map_of_reads reference?_toJson, Option.map_some, List.filterMap_map]
  exact congrArg some List.filterMap_some

end Iri

section

variable {arrange : Json → Json} (rearranges : Rearranges arrange)

include rearranges

theorem Concept.ofJson?_toJson (concept : Concept) :
    ofJson? (arrange concept.toJson) = some concept := by
  have named : concept.members.map Prod.fst = memberNames := rfl
  obtain ⟨record, view, found⟩ := rearranges.exists_record named (by decide)
  have iri : Json.required? record "iri" Iri.ofJson? = some concept.iri :=
    Json.required?_of_lookup ((found "iri").trans (congrArg some (rearranges.string _)))
      concept.iri.ofJson?_toJson
  have label : Json.optional? record "label" Json.text? = some concept.label :=
    Json.optional?_of_lookup ((found "label").trans (rearranges.map_strings id _))
      nofun fun _ => rfl
  have conceptType :
      Json.required? record "concept_type" ConceptType.ofJson? = some concept.conceptType :=
    Json.required?_of_lookup
      ((found "concept_type").trans (congrArg some (rearranges.string _)))
      concept.conceptType.ofJson?_toJson
  have parents : Json.withDefault? record "parent_concepts" [] Iri.references? =
      some concept.parents :=
    Json.withDefault?_of_lookup
      ((found "parent_concepts").trans (congrArg some (rearranges.array_strings Iri.text _)))
      (Iri.references?_toJson _)
  have children : Json.withDefault? record "child_concepts" [] Iri.references? =
      some concept.children :=
    Json.withDefault?_of_lookup
      ((found "child_concepts").trans (congrArg some (rearranges.array_strings Iri.text _)))
      (Iri.references?_toJson _)
  have source : Json.optional? record "source_context" SourceId.ofJson? = some concept.source :=
    Json.optional?_of_lookup
      ((found "source_context").trans (rearranges.map_strings SourceId.name _))
      nofun fun _ => rfl
  have domain : Json.withDefault? record "domain" none Iri.reference? = some concept.domain :=
    Json.withDefault?_none_of_lookup
      ((found "domain").trans (rearranges.map_strings Iri.text _)) Iri.reference?_toJson
  have range : Json.withDefault? record "range" none Iri.reference? = some concept.range :=
    Json.withDefault?_none_of_lookup
      ((found "range").trans (rearranges.map_strings Iri.text _)) Iri.reference?_toJson
  have comment : Json.optional? record "comment" Json.text? = some concept.comment :=
    Json.optional?_of_lookup ((found "comment").trans (rearranges.map_strings id _))
      nofun fun _ => rfl
  rw [ofJson?, toJson, view]
  simp only [Option.bind_eq_bind, Option.bind_some, iri, label, conceptType, parents, children,
    source, domain, range, comment]

theorem Concept.readableOnes?_toJson (concepts : List Concept) :
    readableOnes? (arrange (.array (concepts.map toJson))) = some concepts := by
  rw [rearranges.array, List.map_map]
  exact congrArg some
    (filterMap_map_of_reads (fun concept => ofJson?_toJson rearranges concept) concepts)

theorem Neighbourhood.ofJson?_toJson (hierarchy : Neighbourhood) :
    ofJson? (arrange hierarchy.toJson) = some hierarchy := by
  have named : hierarchy.members.map Prod.fst = memberNames := rfl
  obtain ⟨record, view, found⟩ := rearranges.exists_record named (by decide)
  have concept : Json.required? record "concept" Concept.ofJson? = some hierarchy.concept :=
    Json.required?_of_lookup (found "concept") (Concept.ofJson?_toJson rearranges _)
  have parents : Json.withDefault? record "parents" [] Concept.readableOnes? =
      some hierarchy.parents :=
    Json.withDefault?_of_lookup (found "parents") (Concept.readableOnes?_toJson rearranges _)
  have children : Json.withDefault? record "children" [] Concept.readableOnes? =
      some hierarchy.children :=
    Json.withDefault?_of_lookup (found "children") (Concept.readableOnes?_toJson rearranges _)
  have siblings : Json.withDefault? record "siblings" [] Concept.readableOnes? =
      some hierarchy.siblings :=
    Json.withDefault?_of_lookup (found "siblings") (Concept.readableOnes?_toJson rearranges _)
  rw [ofJson?, toJson, view]
  simp only [Option.bind_eq_bind, Option.bind_some, concept, parents, children, siblings]

end

theorem SourceGroups.alter_of_before {change : List Concept → List Concept} {source : SourceId}
    {groups : SourceGroups} (before : ∀ group ∈ groups, group.1.name < source.name) :
    alter change source groups = groups ++ [(source, change [])] := by
  induction groups with
  | nil => rfl
  | cons first rest ih =>
      obtain ⟨key, held⟩ := first
      have less := before _ List.mem_cons_self
      have other : source ≠ key := by
        rintro rfl
        exact String.lt_irrefl _ less
      have notBefore : source.before key = false :=
        decide_eq_false (String.lt_asymm less)
      rw [alter, if_neg other, if_neg (by simp [notBefore]),
        ih fun group member => before group (List.mem_cons_of_mem _ member), List.cons_append]

namespace ConceptGroups

theorem ofMembers?_of_ordered {decode : Json → Option (List Concept)}
    {encode : List Concept → Json} (reads : ∀ concepts, decode (encode concepts) = some concepts)
    {before rest : SourceGroups} (orderedBefore : SourceGroups.Ordered before)
    (ordered : SourceGroups.Ordered (before ++ rest)) :
    ofMembers? decode ⟨before, orderedBefore⟩
      (rest.map fun group => (group.1.name, encode group.2)) = some ⟨before ++ rest, ordered⟩ := by
  induction rest generalizing before with
  | nil => simp [ofMembers?]
  | cons group rest ih =>
      obtain ⟨source, concepts⟩ := group
      have earlier : ∀ other ∈ before, other.1.name < source.name := fun other member =>
        (List.pairwise_append.mp ordered).2.2 other member _ List.mem_cons_self
      have appended : SourceGroups.alter (fun _ => concepts) source before =
          before ++ [(source, concepts)] := SourceGroups.alter_of_before earlier
      have orderedNext : SourceGroups.Ordered (before ++ [(source, concepts)]) :=
        appended ▸ SourceGroups.ordered_alter orderedBefore
      rw [List.append_cons] at ordered
      have next := ih orderedNext ordered
      simp only [List.map_cons, ofMembers?, reads, replace, appended, next]
      simp

theorem ofJson?_toJson {arrange : Json → Json} (rearranges : Rearranges arrange)
    (grouped : ConceptGroups) : ofJson? (arrange grouped.toJson) = some grouped := by
  have ordered : (grouped.groups.map fun group =>
      (group.1.name, Json.array (group.2.map Concept.toJson))).Pairwise
        fun left right => left.1 < right.1 := List.pairwise_map.mpr grouped.ordered
  have written : arrange grouped.toJson = .object (grouped.groups.map fun group =>
      (group.1.name, arrange (.array (group.2.map Concept.toJson)))) := by
    rw [toJson, rearranges.sorted _ ordered, List.map_map]
    rfl
  rw [ofJson?, written]
  exact ofMembers?_of_ordered (Concept.readableOnes?_toJson rearranges) List.Pairwise.nil
    grouped.ordered

end ConceptGroups

namespace CatalogNode

section

variable {arrange : Json → Json} (rearranges : Rearranges arrange)

include rearranges

theorem ofJson?_node (id name : String) (kind : CatalogKind) (hint : Bool)
    {children : Option (List CatalogNode)}
    (reads : ∀ nodes ∈ children, listOfJson? ((listToJson nodes).map arrange) = some nodes) :
    ofJson? (arrange (toJson (.node id name kind hint children))) =
      some (.node id name kind hint children) := by
  have named : (members id name kind hint (childrenToJson children)).map Prod.fst = memberNames :=
    rfl
  obtain ⟨record, view, found⟩ := rearranges.exists_record named (by decide)
  have ownId : Json.required? record "id" Json.text? = some id :=
    Json.required?_of_lookup ((found "id").trans (congrArg some (rearranges.string _))) rfl
  have ownName : Json.required? record "name" Json.text? = some name :=
    Json.required?_of_lookup ((found "name").trans (congrArg some (rearranges.string _))) rfl
  have ownKind : Json.required? record "type" CatalogKind.ofJson? = some kind :=
    Json.required?_of_lookup ((found "type").trans (congrArg some (rearranges.string _)))
      kind.ofJson?_name
  have ownHint : Json.withDefault? record "hasChildren" false Json.bool? = some hint :=
    Json.withDefault?_of_lookup ((found "hasChildren").trans (congrArg some (rearranges.bool _)))
      rfl
  have below : record.lookup "children" =
      children.map fun nodes => .array ((listToJson nodes).map arrange) := by
    rw [found]
    cases children with
    | none => rfl
    | some nodes => exact congrArg some (rearranges.array _)
  rw [toJson, ofJson?]
  split
  · next missing => cases view.symm.trans missing
  · next other same =>
      obtain rfl := Option.some.inj (view.symm.trans same)
      simp only [ownId, ownName, ownKind, ownHint]
      cases children with
      | none =>
          split
          · rfl
          · rfl
          · next found => cases below.symm.trans found
          · next found => cases below.symm.trans found
      | some nodes =>
          split
          · next found => cases below.symm.trans found
          · next found => cases below.symm.trans found
          · next items found =>
              cases below.symm.trans found
              rw [reads nodes rfl, Option.map_some]
          · next notArray found =>
              cases below.symm.trans found
              exact absurd rfl (notArray _)

theorem listOfJson?_toJson (nodes : List CatalogNode) :
    listOfJson? ((listToJson nodes).map arrange) = some nodes := by
  induction nodes using forest_induction with
  | nil => rw [listToJson, List.map_nil, listOfJson?]
  | unlisted own name kind hint rest ih =>
      have reads : ∀ nodes ∈ (none : Option (List CatalogNode)),
          listOfJson? ((listToJson nodes).map arrange) = some nodes := by
        intro nodes member
        cases member
      have first := ofJson?_node rearranges own name kind hint reads
      rw [listToJson, List.map_cons, listOfJson?, first, ih]
  | listed own name kind hint below rest ihBelow ihRest =>
      have reads :
          ∀ nodes ∈ some below, listOfJson? ((listToJson nodes).map arrange) = some nodes := by
        rintro nodes ⟨⟩
        exact ihBelow
      have first := ofJson?_node rearranges own name kind hint reads
      rw [listToJson, List.map_cons, listOfJson?, first, ihRest]

theorem ofJson?_toJson (node : CatalogNode) : ofJson? (arrange node.toJson) = some node := by
  obtain ⟨id, name, kind, hint, children⟩ := node
  exact ofJson?_node rearranges id name kind hint
    fun nodes _ => listOfJson?_toJson rearranges nodes

end

end CatalogNode

/-- Concepts, neighbourhoods, groups and catalog nodes read back from what they are written as, also
with their members sorted. -/
theorem reads_back_what_is_written :
    (∀ concept : Concept, Concept.ofJson? concept.toJson = some concept ∧
      Concept.ofJson? concept.toJson.sorted = some concept) ∧
    (∀ hierarchy : Neighbourhood, Neighbourhood.ofJson? hierarchy.toJson = some hierarchy ∧
      Neighbourhood.ofJson? hierarchy.toJson.sorted = some hierarchy) ∧
    (∀ grouped : ConceptGroups, ConceptGroups.ofJson? grouped.toJson = some grouped ∧
      ConceptGroups.ofJson? grouped.toJson.sorted = some grouped) ∧
    (∀ node : CatalogNode, CatalogNode.ofJson? node.toJson = some node ∧
      CatalogNode.ofJson? node.toJson.sorted = some node) :=
  ⟨fun concept => ⟨Concept.ofJson?_toJson Json.rearranges_id concept,
      Concept.ofJson?_toJson Json.rearranges_sorted concept⟩,
    fun hierarchy => ⟨Neighbourhood.ofJson?_toJson Json.rearranges_id hierarchy,
      Neighbourhood.ofJson?_toJson Json.rearranges_sorted hierarchy⟩,
    fun grouped => ⟨ConceptGroups.ofJson?_toJson Json.rearranges_id grouped,
      ConceptGroups.ofJson?_toJson Json.rearranges_sorted grouped⟩,
    fun node => ⟨CatalogNode.ofJson?_toJson Json.rearranges_id node,
      CatalogNode.ofJson?_toJson Json.rearranges_sorted node⟩⟩

end CatalogBrowser
