import CatalogBrowser.Concept.Document
import CatalogBrowser.Proofs.Concept.Leniency
import CatalogBrowser.Proofs.Json.Printing
import CatalogBrowser.Proofs.RoundTrip

/-!
The two forms of a file of concepts.

A printed file is read as the value it was printed from, so all depends on which member is taken for
the groups.  A payload always has them under `grouped_concepts`.  Bare groups are recognised by the
absence of such a member, which is why no source may have that name.
-/

namespace CatalogBrowser

/-! Concepts and groups are read from their texts as they are -/

theorem Concept.faithful_toJson (concept : Concept) : concept.toJson.Faithful 2 := by
  have named : (concept.members.map Prod.fst).Nodup := by
    change memberNames.Nodup
    decide
  refine .ofMembers named ?_
  simp only [members, List.forall_mem_cons, List.not_mem_nil, false_imp_iff, implies_true, and_true]
  refine ⟨?_, ?_, ?_, ?_, ?_, ?_, ?_, ?_, ?_⟩
  · rintro _ ⟨⟩; exact .string _
  · exact .optionalText id _
  · rintro _ ⟨⟩; exact .string _
  · rintro _ ⟨⟩; exact .texts Iri.text _
  · rintro _ ⟨⟩; exact .texts Iri.text _
  · exact .optionalText SourceId.name _
  · exact .optionalText Iri.text _
  · exact .optionalText Iri.text _
  · exact .optionalText id _

namespace ConceptGroups

def payload (grouped : ConceptGroups) : Json := .object [("grouped_concepts", grouped.toJson)]

theorem names_toJson (grouped : ConceptGroups) :
    (grouped.groups.map fun group =>
      (group.1.name, Json.array (group.2.map Concept.toJson))).map Prod.fst =
      grouped.sources.map SourceId.name := by
  rw [sources, List.map_map, List.map_map]
  rfl

theorem faithful_toJson (grouped : ConceptGroups) : grouped.toJson.Faithful 4 := by
  have named : (grouped.sources.map SourceId.name).Nodup :=
    grouped.nodup_sources.map fun _ _ same => congrArg SourceId.mk same
  refine .object (grouped.names_toJson ▸ named) fun member inside => ?_
  obtain ⟨⟨source, concepts⟩, _, rfl⟩ := List.mem_map.mp inside
  refine .array fun item listed => ?_
  obtain ⟨concept, _, rfl⟩ := List.mem_map.mp listed
  exact concept.faithful_toJson

theorem faithful_payload (grouped : ConceptGroups) : grouped.payload.Faithful 5 := by
  refine .object (List.nodup_singleton _) fun member inside => ?_
  obtain rfl := List.mem_singleton.mp inside
  exact grouped.faithful_toJson

theorem member?_toJson_of_notMem {grouped : ConceptGroups} {source : SourceId}
    (absent : source ∉ grouped.sources) : grouped.toJson.member? source.name = none := by
  refine Json.lookup_eq_none_of_notMem fun inside => absent ?_
  rw [List.map_reverse, List.mem_reverse, grouped.names_toJson] at inside
  obtain ⟨own, listed, same⟩ := List.mem_map.mp inside
  have isSource : own = source := congrArg SourceId.mk same
  exact isSource ▸ listed

theorem member?_toJson_of_mem {grouped : ConceptGroups} {source : SourceId}
    (present : source ∈ grouped.sources) :
    ∃ items, grouped.toJson.member? source.name = some (.array items) := by
  obtain ⟨group, member, rfl⟩ := List.mem_map.mp present
  cases found : grouped.toJson.member? group.1.name with
  | none =>
      have absent := List.lookup_eq_none_iff.mp found (group.1.name, _)
        (List.mem_reverse.mpr (List.mem_map_of_mem member))
      exact absurd rfl (bne_iff_ne.mp absent)
  | some json =>
      obtain ⟨group, _, same⟩ := List.mem_map.mp (List.mem_reverse.mp (mem_of_lookup found))
      exact ⟨_, congrArg some (Prod.mk.inj same).2.symm⟩

end ConceptGroups

namespace ConceptDocument

section

variable {json : Json} (faithful : json.Faithful Json.deepest)

include faithful

theorem ofText_compact_of_some {document : ConceptDocument}
    (reads : ofJson? json = some document) : ofText json.compact = .ok document := by
  rw [ofText, faithful.read_compact, Option.bind_some, faithful.single, reads]

theorem ofText_compact_of_none (fails : ofJson? json = none) :
    ∃ reason, ofText json.compact = .error (.validation "concepts" reason) := by
  rw [ofText, faithful.read_compact, Option.bind_some, faithful.single, fails]
  exact ⟨_, rfl⟩

theorem ofText_of_groupsOf {grouped : ConceptGroups} (held : groupsOf json = grouped.toJson) :
    ofText json.compact = .ok (ofGrouped grouped) := by
  have reads : ConceptGroups.ofJson? grouped.toJson = some grouped :=
    ConceptGroups.ofJson?_toJson Json.rearranges_id grouped
  refine ofText_compact_of_some faithful ?_
  rw [ofJson?, held, reads, Option.map_some]

end

theorem ofText_payload (grouped : ConceptGroups) :
    ofText grouped.payload.compact = .ok (ofGrouped grouped) :=
  ofText_of_groupsOf (grouped.faithful_payload.mono (by decide)) rfl

theorem ofText_toJson_of_notMem {grouped : ConceptGroups}
    (absent : ⟨"grouped_concepts"⟩ ∉ grouped.sources) :
    ofText grouped.toJson.compact = .ok (ofGrouped grouped) := by
  refine ofText_of_groupsOf (grouped.faithful_toJson.mono (by decide)) ?_
  rw [groupsOf, ConceptGroups.member?_toJson_of_notMem absent, Option.getD_none]

theorem ofText_toJson_of_mem {grouped : ConceptGroups}
    (present : ⟨"grouped_concepts"⟩ ∈ grouped.sources) :
    ∃ reason, ofText grouped.toJson.compact = .error (.validation "concepts" reason) := by
  obtain ⟨items, found⟩ := ConceptGroups.member?_toJson_of_mem present
  refine ofText_compact_of_none (grouped.faithful_toJson.mono (by decide)) ?_
  rw [ofJson?, groupsOf, found]
  rfl

/-- Groups are read back from a payload and from their bare form, unless a source is named like the
member of a payload. -/
theorem both_forms_hold_groups (grouped : ConceptGroups) :
    ∃ wrapped, ofText grouped.payload.compact = .ok wrapped ∧ wrapped.grouped = grouped ∧
      if ⟨"grouped_concepts"⟩ ∈ grouped.sources then
        ∃ reason, ofText grouped.toJson.compact = .error (.validation "concepts" reason)
      else
        ∃ bare, ofText grouped.toJson.compact = .ok bare ∧ bare.grouped = grouped ∧
          ∀ iri, bare.hierarchy iri = wrapped.hierarchy iri := by
  refine ⟨_, ofText_payload grouped, rfl, ?_⟩
  split
  · next present => exact ofText_toJson_of_mem present
  · next absent => exact ⟨_, ofText_toJson_of_notMem absent, rfl, fun _ => rfl⟩

/-- Bare groups whose source is named `grouped_concepts` are refused, though their payload is
read. -/
theorem bare_groups_refused :
    let grouped := ConceptGroups.empty.insert ⟨"grouped_concepts"⟩
      [{ iri := ⟨"A", by decide⟩, conceptType := .ontologyClass }]
    ofText grouped.payload.compact = .ok (ofGrouped grouped) ∧
      ∃ reason, ofText grouped.toJson.compact = .error (.validation "concepts" reason) :=
  ⟨ofText_payload _, ofText_toJson_of_mem (by decide)⟩

end ConceptDocument

end CatalogBrowser
