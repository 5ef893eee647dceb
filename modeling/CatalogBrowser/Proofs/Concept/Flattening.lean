import CatalogBrowser.Proofs.Concept.Leniency
import CatalogBrowser.Proofs.FirstBy

/-!
What flattening makes of grouped concepts: the first record of every identifier, in the order of the
sources and then of the groups, with a source of its own or that of its group.

The groups matter only by what they hold together.  In which order sources were filled, and in how
many parts, makes no difference.
-/

namespace CatalogBrowser

theorem Concept.firstOfEach_eq (concepts : List Concept) :
    firstOfEach concepts = firstBy Concept.iri [] concepts := by
  refine foldl_eq_append_firstBy (fun kept concept => ?_) concepts []
  simp [addFirst]

namespace ConceptGroups

/-- All records in the order of their sources, with the source they state or that of the group. -/
def records (grouped : ConceptGroups) : List Concept :=
  grouped.groups.flatMap fun group => group.2.map (inheritSource group.1)

theorem flatten_eq (grouped : ConceptGroups) :
    grouped.flatten = firstBy Concept.iri [] grouped.records := Concept.firstOfEach_eq _

def entries (grouped : ConceptGroups) : List (SourceId × Concept) :=
  grouped.groups.flatMap fun group => group.2.map (group.1, ·)

def groupOf (grouped : ConceptGroups) (source : SourceId) : List Concept :=
  (grouped.groups.lookup source).getD []

def insertAll (grouped : ConceptGroups) (inserts : List (SourceId × List Concept)) :
    ConceptGroups :=
  inserts.foldl (fun grouped part => grouped.insert part.1 part.2) grouped

def insertedFor (source : SourceId) (inserts : List (SourceId × List Concept)) : List Concept :=
  (inserts.filter fun part => part.1 = source).flatMap Prod.snd

section

variable {grouped other : ConceptGroups}

theorem groupOf_insert (grouped : ConceptGroups) (source : SourceId) (concepts : List Concept)
    (asked : SourceId) : (grouped.insert source concepts).groupOf asked =
      grouped.groupOf asked ++ if source = asked then concepts else [] := by
  unfold groupOf insert
  split
  · next same =>
    subst same
    rw [SourceGroups.lookup_alter_self grouped.ordered, Option.getD_some]
  · next different =>
    rw [SourceGroups.lookup_alter_of_ne (Ne.symm different), List.append_nil]

theorem groupOf_insertAll (grouped : ConceptGroups) (inserts : List (SourceId × List Concept))
    (source : SourceId) : (grouped.insertAll inserts).groupOf source =
      grouped.groupOf source ++ insertedFor source inserts := by
  induction inserts generalizing grouped with
  | nil => simp [insertAll, insertedFor]
  | cons part rest ih =>
      rw [insertAll, List.foldl_cons, ← insertAll, ih, groupOf_insert, List.append_assoc]
      congr 1
      unfold insertedFor
      by_cases same : part.1 = source <;> simp [same]

/-! Groups by what they hold -/

def filledGroups (grouped : ConceptGroups) : SourceGroups :=
  grouped.groups.filter fun group => group.2 ≠ []

theorem mem_filledGroups {source : SourceId} {concepts : List Concept} :
    (source, concepts) ∈ grouped.filledGroups ↔
      grouped.groupOf source = concepts ∧ concepts ≠ [] := by
  rw [filledGroups, List.mem_filter, decide_eq_true_eq]
  refine and_congr_left fun filled => ⟨fun member => ?_, fun held => ?_⟩
  · rw [groupOf, lookup_of_mem_nodup grouped.nodup_sources member, Option.getD_some]
  · cases found : grouped.groups.lookup source with
    | none =>
        rw [groupOf, found, Option.getD_none] at held
        exact absurd held.symm filled
    | some own =>
        rw [groupOf, found, Option.getD_some] at held
        exact held ▸ mem_of_lookup found

theorem nodup_filledGroups (grouped : ConceptGroups) : grouped.filledGroups.Nodup :=
  (grouped.nodup_sources.of_map _).filter _

theorem filledGroups_congr (same : ∀ source, grouped.groupOf source = other.groupOf source) :
    grouped.filledGroups = other.filledGroups := by
  have perm : grouped.filledGroups.Perm other.filledGroups := by
    rw [List.perm_ext_iff_of_nodup grouped.nodup_filledGroups other.nodup_filledGroups]
    rintro ⟨source, concepts⟩
    rw [mem_filledGroups, mem_filledGroups, same]
  refine perm.eq_of_pairwise (fun left right _ _ less more => ?_)
    (grouped.ordered.filter _) (other.ordered.filter _)
  exact absurd more (String.lt_asymm less)

theorem entries_eq_filledGroups (grouped : ConceptGroups) :
    grouped.entries = grouped.filledGroups.flatMap fun group => group.2.map (group.1, ·) := by
  unfold entries filledGroups
  induction grouped.groups with
  | nil => rfl
  | cons group rest ih =>
      rw [List.flatMap_cons, ih, List.filter_cons]
      by_cases empty : group.2 = [] <;> simp [empty]

theorem entries_congr (same : ∀ source, grouped.groupOf source = other.groupOf source) :
    grouped.entries = other.entries := by
  rw [entries_eq_filledGroups, entries_eq_filledGroups, filledGroups_congr same]

theorem records_eq (grouped : ConceptGroups) :
    grouped.records = grouped.entries.map fun entry => inheritSource entry.1 entry.2 := by
  simp only [records, entries, List.map_flatMap, List.map_map]
  rfl

theorem flatten_eq_map_entries (grouped : ConceptGroups) :
    grouped.flatten = (firstBy (fun entry => entry.2.iri) [] grouped.entries).map fun entry =>
      inheritSource entry.1 entry.2 := by
  rw [flatten_eq, records_eq]
  exact (map_firstBy Concept.iri
    (fun entry : SourceId × Concept => inheritSource entry.1 entry.2) [] _).symm

theorem flatten_congr (same : ∀ source, grouped.groupOf source = other.groupOf source) :
    grouped.flatten = other.flatten := by
  rw [flatten_eq_map_entries, flatten_eq_map_entries, entries_congr same]

theorem map_iri_flatten (grouped : ConceptGroups) : grouped.flatten.map Concept.iri =
    (firstBy (fun entry => entry.2.iri) [] grouped.entries).map fun entry => entry.2.iri := by
  rw [flatten_eq_map_entries, List.map_map]
  rfl

/-- The first record of every identifier stays, in order, with the source of its group if it states
none. -/
theorem flatten_keeps_first_records :
    (∀ grouped : ConceptGroups,
      let iris := grouped.entries.map fun entry => entry.2.iri
      (∀ iri, (grouped.flatten.map Concept.iri).count iri = if iri ∈ iris then 1 else 0) ∧
      (grouped.flatten.Pairwise fun earlier later =>
        iris.idxOf earlier.iri < iris.idxOf later.iri) ∧
      ∀ concept ∈ grouped.flatten, ∃ source record,
        grouped.entries.find? (fun entry => entry.2.iri = concept.iri) = some (source, record) ∧
        concept = { record with source := some (record.source.getD source) }) ∧
    ∀ (grouped other : ConceptGroups) (inserts others : List (SourceId × List Concept)),
      (∀ source, grouped.groupOf source ++ insertedFor source inserts =
        other.groupOf source ++ insertedFor source others) →
      (grouped.insertAll inserts).flatten = (other.insertAll others).flatten := by
  refine ⟨fun grouped => ⟨fun iri => ?_, ?_, fun concept kept => ?_⟩, ?_⟩
  · rw [map_iri_flatten, nodup_map_firstBy.count]
    exact if_congr (mem_map_firstBy.trans (and_iff_left List.not_mem_nil)) rfl rfl
  · rw [flatten_eq_map_entries, List.pairwise_map]
    exact pairwise_idxOf_firstBy
  · rw [flatten_eq_map_entries] at kept
    obtain ⟨⟨source, record⟩, first, rfl⟩ := List.mem_map.mp kept
    exact ⟨source, record, find?_of_mem_firstBy first, rfl⟩
  · intro grouped other inserts others same
    refine flatten_congr fun source => ?_
    rw [groupOf_insertAll, groupOf_insertAll, same]

theorem flatten_keeps_first_records_of_interleaved :
    let x : Iri := ⟨"x", by decide⟩
    let stated : Concept := { iri := x, conceptType := .ontologyClass, source := some ⟨"c"⟩ }
    let bare : Concept := { iri := x, conceptType := .concept }
    let last : Concept := { iri := ⟨"y", by decide⟩, conceptType := .property }
    let inserts : List (SourceId × List Concept) :=
      [(⟨"b"⟩, [stated]), (⟨"a"⟩, [bare]), (⟨"b"⟩, [last])]
    let others : List (SourceId × List Concept) :=
      [(⟨"a"⟩, []), (⟨"b"⟩, [stated, last]), (⟨"a"⟩, [bare])]
    let grouped := empty.insertAll inserts
    let kept := { bare with source := some ⟨"a"⟩ }
    (∀ source, empty.groupOf source ++ insertedFor source inserts =
      empty.groupOf source ++ insertedFor source others) ∧
    grouped.flatten = (empty.insertAll others).flatten ∧
    kept ∈ grouped.flatten ∧ ∃ source record,
      grouped.entries.find? (fun entry => entry.2.iri = x) = some (source, record) ∧
      kept = { record with source := some (record.source.getD source) } := by
  intro x stated bare last inserts others grouped kept
  obtain ⟨firsts, together⟩ := flatten_keeps_first_records
  have alike : ∀ source, empty.groupOf source ++ insertedFor source inserts =
      empty.groupOf source ++ insertedFor source others := by
    intro source
    by_cases first : source = ⟨"a"⟩
    · subst first; rfl
    · by_cases second : source = ⟨"b"⟩
      · subst second; rfl
      · simp [insertedFor, inserts, others, Ne.symm first, Ne.symm second]
  have member : kept ∈ grouped.flatten := by decide
  exact ⟨alike, together empty empty inserts others alike, member,
    (firsts grouped).2.2 kept member⟩

end

end ConceptGroups

end CatalogBrowser
