import CatalogBrowser.Concept.Groups
import CatalogBrowser.Concept.Hierarchy
import CatalogBrowser.Proofs.Json.Records

/-!
What the lenient readers drop, what they skip and what they refuse.

A reference that cannot be used is dropped, an entry that is no concept is skipped, and a value that
is no list of entries is refused.  Each reader is stated against the members and the entries of the
value itself.
-/

namespace CatalogBrowser

namespace Json

/-- A value that stands for a list; `null` stands for the empty one. -/
def IsListing (json : Json) : Prop := json = .null ∨ ∃ items, json = .array items

def entries : Json → List Json
  | .array items => items
  | .null | .bool _ | .number _ | .string _ | .object _ => []

def IsOptionalText (json : Json) : Prop := json = .null ∨ ∃ text, json = .string text

section

variable {α : Type} {record : List (String × Json)} {name : String}

/-- The item of the text that a member gives; it may be absent or `null`. -/
def OptionalText (text : α → String) (member : Option Json) (value : Option α) : Prop :=
  (∀ json ∈ member, json.IsOptionalText) ∧
    ∀ item, value = some item ↔ member = some (.string (text item))

def Listed (read : Json → Option α) (member : Option Json) (items : List α) : Prop :=
  match member with
  | none => items = []
  | some json => json.IsListing ∧ items = json.entries.filterMap read

theorem optionalText_none_iff {text : α → String} {value : Option α} :
    OptionalText text none value ↔ value = none := by
  simp [OptionalText, Option.eq_none_iff_forall_ne_some]

theorem optionalText_some_iff {text : α → String} {decode : Json → Option α} {json : Json}
    {value : Option α} (reads : ∀ json item, decode json = some item ↔ json = .string (text item)) :
    OptionalText text (some json) value ↔ json.IsOptionalText ∧ value = decode json := by
  rw [OptionalText, Option.ext_iff]
  simp only [Option.mem_some_iff, forall_eq', Option.some.injEq, reads]

theorem required?_eq_some_iff {decode : Json → Option α} {value : α} :
    required? record name decode = some value ↔
      ∃ json, record.lookup name = some json ∧ decode json = some value :=
  Option.bind_eq_some_iff

theorem optional?_eq_some_iff {text : α → String} {decode : Json → Option α} {value : Option α}
    (reads : ∀ json item, decode json = some item ↔ json = .string (text item))
    (total : ∀ own, (decode (.string own)).isSome) :
    optional? record name decode = some value ↔
      OptionalText text (record.lookup name) value := by
  unfold optional?
  split
  · next absent => rw [absent, optionalText_none_iff, Option.some.injEq, eq_comm]
  · next null =>
      have nothing : decode .null = none :=
        Option.eq_none_iff_forall_ne_some.mpr fun item => by simp [reads]
      rw [null, optionalText_some_iff reads, nothing, Option.some.injEq, eq_comm]
      exact (and_iff_right (.inl rfl)).symm
  · next json notNull found =>
      rw [found, optionalText_some_iff reads]
      constructor
      · intro decoded
        obtain ⟨item, isItem, rfl⟩ := Option.map_eq_some_iff.mp decoded
        exact ⟨.inr ⟨_, (reads json item).mp isItem⟩, isItem.symm⟩
      · rintro ⟨rfl | ⟨own, rfl⟩, rfl⟩
        · exact absurd rfl notNull
        · obtain ⟨item, isItem⟩ := Option.isSome_iff_exists.mp (total own)
          rw [isItem, Option.map_some]

theorem withDefault?_eq_some_iff {decode : Json → Option α} {default value : α}
    {gives : Option Json → α → Prop} (absent : ∀ value, gives none value ↔ value = default)
    (reads : ∀ json value, decode json = some value ↔ gives (some json) value) :
    withDefault? record name default decode = some value ↔ gives (record.lookup name) value := by
  unfold withDefault?
  cases record.lookup name with
  | none => rw [absent, Option.some.injEq, eq_comm]
  | some json => exact reads json value

theorem optional?_text?_iff {value : Option String} :
    optional? record name text? = some value ↔ OptionalText id (record.lookup name) value :=
  optional?_eq_some_iff (fun json own => by cases json <;> simp [text?]) fun _ => rfl

theorem optional?_source_iff {value : Option SourceId} :
    optional? record name SourceId.ofJson? = some value ↔
      OptionalText SourceId.name (record.lookup name) value := by
  refine optional?_eq_some_iff (fun json source => ?_) fun _ => rfl
  obtain ⟨own⟩ := source
  cases json <;> simp [SourceId.ofJson?, text?]

end

end Json

namespace ConceptType

theorem ofName?_eq_some_iff {name : String} {kind : ConceptType} :
    ofName? name = some kind ↔ name = kind.name := by
  constructor
  · intro found
    simpa [eq_comm] using List.find?_some found
  · rintro rfl
    exact ofName?_name kind

theorem ofJson?_eq_some_iff {json : Json} {kind : ConceptType} :
    ofJson? json = some kind ↔ json = .string kind.name ∨ json = .object [(kind.name, .null)] := by
  unfold ofJson? Json.choice?
  split
  · simp [ofName?_eq_some_iff]
  · simp [ofName?_eq_some_iff]
  · next noText noMember =>
      refine iff_of_false nofun ?_
      rintro (same | same)
      · exact noText _ same
      · exact noMember _ same

end ConceptType

namespace Iri

theorem isOk_ofText_iff {text : String} :
    (ofText text).isOk ↔ text ≠ "" ∧ ∀ c ∈ text.toList, Text.isBlank c = false := by
  have accepted : (ofText text).isOk = usableChars text.toList := by
    cases usable : usableChars text.toList with
    | true =>
        rw [ofText_of_usable usable]
        rfl
    | false =>
        obtain ⟨cause, refused⟩ := ofText_of_unusable usable
        rw [refused]
        rfl
  rw [accepted, usableChars]
  simp

theorem ofJson?_eq_some_iff {json : Json} {iri : Iri} :
    ofJson? json = some iri ↔ json = .string iri.text := by
  unfold ofJson?
  cases json with
  | string own =>
      rw [Json.text?, Option.bind_some, ofText?_eq_some_iff, ofText_eq_ok_iff, Json.string.injEq,
        eq_comm]
  | null | bool _ | number _ | array _ | object _ => simp [Json.text?]

def accepts : Json → Bool
  | .string text => (ofText text).isOk
  | .null | .bool _ | .number _ | .array _ | .object _ => false

/-- The accepted entries of a list of references, whose other entries are texts or `null`. -/
def References (member : Option Json) (iris : List Iri) : Prop :=
  match member with
  | none => iris = []
  | some json =>
    json.IsListing ∧ (∀ entry ∈ json.entries, entry.IsOptionalText) ∧
      iris.map (fun iri => Json.string iri.text) = json.entries.filter accepts

theorem accepts_eq_isSome (json : Json) : accepts json = (ofJson? json).isSome := by
  cases json with
  | string text =>
      rw [accepts, ofJson?, Json.text?, Option.bind_some, ofText?]
      cases ofText text <;> rfl
  | null | bool _ | number _ | array _ | object _ => rfl

theorem map_filterMap_ofJson? (entries : List Json) :
    (entries.filterMap ofJson?).map (fun iri => Json.string iri.text) = entries.filter accepts := by
  induction entries with
  | nil => rfl
  | cons entry rest ih =>
      rw [List.filterMap_cons, List.filter_cons, accepts_eq_isSome]
      cases reads : ofJson? entry with
      | none => exact ih
      | some iri =>
          rw [ofJson?_eq_some_iff] at reads
          simp [ih, reads]

theorem reference?_eq_some_iff {json : Json} {iri : Option Iri} :
    reference? json = some iri ↔ json.IsOptionalText ∧ iri = ofJson? json := by
  unfold reference? ofJson?
  cases json with
  | null => simp [Json.IsOptionalText, Json.text?, eq_comm]
  | string own => simp [Json.IsOptionalText, Json.text?, eq_comm]
  | bool _ | number _ | array _ | object _ => simp [Json.IsOptionalText]

theorem mapM_reference?_eq_some_iff {items : List Json} {iris : List (Option Iri)} :
    items.mapM reference? = some iris ↔
      (∀ item ∈ items, item.IsOptionalText) ∧ iris = items.map ofJson? := by
  induction items generalizing iris with
  | nil => simp [eq_comm]
  | cons item rest ih =>
      simp only [List.mapM_cons, Option.bind_eq_bind, Option.bind_eq_some_iff,
        reference?_eq_some_iff, ih, List.forall_mem_cons, List.map_cons]
      constructor
      · rintro ⟨_, ⟨first, rfl⟩, _, ⟨others, rfl⟩, same⟩
        exact ⟨⟨first, others⟩, (Option.some.inj same).symm⟩
      · rintro ⟨⟨first, others⟩, rfl⟩
        exact ⟨_, ⟨first, rfl⟩, _, ⟨others, rfl⟩, rfl⟩

theorem references?_eq_some_iff {json : Json} {iris : List Iri} :
    references? json = some iris ↔ References (some json) iris := by
  have sameTexts : ∀ {others : List Iri},
      iris.map (fun iri => Json.string iri.text) = others.map (fun iri => Json.string iri.text) ↔
        iris = others :=
    List.map_inj_right fun _ _ same => text_injective (Json.string.inj same)
  rw [References, ← map_filterMap_ofJson?, sameTexts]
  cases json with
  | array items =>
      simp only [references?, Option.map_eq_some_iff, mapM_reference?_eq_some_iff]
      constructor
      · rintro ⟨_, ⟨texts, rfl⟩, rfl⟩
        exact ⟨.inr ⟨items, rfl⟩, texts, List.filterMap_map⟩
      · rintro ⟨_, texts, rfl⟩
        exact ⟨items.map ofJson?, ⟨texts, rfl⟩, List.filterMap_map⟩
  | null => simp [references?, Json.IsListing, Json.entries, eq_comm]
  | bool _ | number _ | string _ | object _ => simp [references?, Json.IsListing]

end Iri

namespace Concept

/-- What a concept has from the members of a value, found by name or by position. -/
structure ReadFrom (json : Json) (concept : Concept) : Prop where
  shape : json.IsRecord memberNames
  iri : json.field? 0 "iri" = some (.string concept.iri.text)
  label : Json.OptionalText id (json.field? 1 "label") concept.label
  conceptType : json.field? 2 "concept_type" = some (.string concept.conceptType.name) ∨
    json.field? 2 "concept_type" = some (.object [(concept.conceptType.name, .null)])
  parents : Iri.References (json.field? 3 "parent_concepts") concept.parents
  children : Iri.References (json.field? 4 "child_concepts") concept.children
  source : Json.OptionalText SourceId.name (json.field? 5 "source_context") concept.source
  domain : Json.OptionalText Iri.text (json.field? 6 "domain") concept.domain
  range : Json.OptionalText Iri.text (json.field? 7 "range") concept.range
  comment : Json.OptionalText id (json.field? 8 "comment") concept.comment

section

variable {record : List (String × Json)} {name : String}

theorem withDefault?_references?_iff {iris : List Iri} :
    Json.withDefault? record name [] Iri.references? = some iris ↔
      Iri.References (record.lookup name) iris :=
  Json.withDefault?_eq_some_iff (fun _ => Iff.rfl) fun _ _ => Iri.references?_eq_some_iff

theorem withDefault?_reference?_iff {iri : Option Iri} :
    Json.withDefault? record name none Iri.reference? = some iri ↔
      Json.OptionalText Iri.text (record.lookup name) iri := by
  refine Json.withDefault?_eq_some_iff (fun _ => Json.optionalText_none_iff) fun json value => ?_
  rw [Iri.reference?_eq_some_iff, Json.optionalText_some_iff fun _ _ => Iri.ofJson?_eq_some_iff]

end

theorem ofJson?_eq_some_iff {json : Json} {concept : Concept} :
    ofJson? json = some concept ↔ ReadFrom json concept := by
  have distinctNames : memberNames.Nodup := by decide
  rcases json.record?_cases distinctNames with
    ⟨view, noRecord⟩ | ⟨record, view, shape, field⟩
  · rw [ofJson?, view]
    exact iff_of_false nofun fun read => noRecord read.shape
  · simp only [ofJson?, view, Option.bind_eq_bind, Option.bind_some, Option.bind_eq_some_iff,
      Json.required?_eq_some_iff, Json.optional?_text?_iff, Json.optional?_source_iff,
      withDefault?_references?_iff, withDefault?_reference?_iff, Iri.ofJson?_eq_some_iff,
      ConceptType.ofJson?_eq_some_iff, and_or_left, exists_or, exists_eq_right]
    rw [field 0 "iri" rfl, field 1 "label" rfl, field 2 "concept_type" rfl,
      field 3 "parent_concepts" rfl, field 4 "child_concepts" rfl, field 5 "source_context" rfl,
      field 6 "domain" rfl, field 7 "range" rfl, field 8 "comment" rfl]
    constructor
    · rintro ⟨_, iri, _, label, _, conceptType, _, parents, _, children, _, source, _, domain,
        _, range, _, comment, ⟨⟩⟩
      exact ⟨shape, iri, label, conceptType, parents, children, source, domain, range, comment⟩
    · rintro ⟨-, iri, label, conceptType, parents, children, source, domain, range, comment⟩
      exact ⟨_, iri, _, label, _, conceptType, _, parents, _, children, _, source, _, domain,
        _, range, _, comment, rfl⟩

theorem readableOnes?_eq_some_iff {json : Json} {concepts : List Concept} :
    readableOnes? json = some concepts ↔ Json.Listed ofJson? (some json) concepts := by
  cases json with
  | null | array _ => simp [readableOnes?, Json.Listed, Json.IsListing, Json.entries, eq_comm]
  | bool _ | number _ | string _ | object _ => simp [readableOnes?, Json.Listed, Json.IsListing]

theorem isSome_readableOnes?_iff {json : Json} : (readableOnes? json).isSome ↔ json.IsListing := by
  simp only [Option.isSome_iff_exists, readableOnes?_eq_some_iff, Json.Listed, exists_and_left,
    exists_eq, and_true]

theorem withDefault?_readableOnes?_iff {record : List (String × Json)} {name : String}
    {concepts : List Concept} :
    Json.withDefault? record name [] readableOnes? = some concepts ↔
      Json.Listed ofJson? (record.lookup name) concepts :=
  Json.withDefault?_eq_some_iff (fun _ => Iff.rfl) fun _ _ => readableOnes?_eq_some_iff

end Concept

namespace Neighbourhood

structure ReadFrom (json : Json) (hierarchy : Neighbourhood) : Prop where
  shape : json.IsRecord memberNames
  concept : ∃ entry, json.field? 0 "concept" = some entry ∧
    Concept.ReadFrom entry hierarchy.concept
  parents : Json.Listed Concept.ofJson? (json.field? 1 "parents") hierarchy.parents
  children : Json.Listed Concept.ofJson? (json.field? 2 "children") hierarchy.children
  siblings : Json.Listed Concept.ofJson? (json.field? 3 "siblings") hierarchy.siblings

theorem ofJson?_eq_some_iff {json : Json} {hierarchy : Neighbourhood} :
    ofJson? json = some hierarchy ↔ ReadFrom json hierarchy := by
  have distinctNames : memberNames.Nodup := by decide
  rcases json.record?_cases distinctNames with
    ⟨view, noRecord⟩ | ⟨record, view, shape, field⟩
  · rw [ofJson?, view]
    exact iff_of_false nofun fun read => noRecord read.shape
  · simp only [ofJson?, view, Option.bind_eq_bind, Option.bind_some, Option.bind_eq_some_iff,
      Json.required?_eq_some_iff, Concept.withDefault?_readableOnes?_iff,
      Concept.ofJson?_eq_some_iff]
    rw [field 0 "concept" rfl, field 1 "parents" rfl, field 2 "children" rfl,
      field 3 "siblings" rfl]
    constructor
    · rintro ⟨_, concept, _, parents, _, children, _, siblings, ⟨⟩⟩
      exact ⟨shape, concept, parents, children, siblings⟩
    · rintro ⟨-, concept, parents, children, siblings⟩
      exact ⟨_, concept, _, parents, _, children, _, siblings, rfl⟩

end Neighbourhood

namespace SourceGroups

theorem lookup_alter_self {change : List Concept → List Concept} {source : SourceId}
    {groups : SourceGroups} (ordered : Ordered groups) :
    (alter change source groups).lookup source =
      some (change ((groups.lookup source).getD [])) := by
  induction groups with
  | nil => exact List.lookup_cons_self
  | cons first rest ih =>
      obtain ⟨key, held⟩ := first
      rw [alter]
      split
      · next isKey => rw [isKey, List.lookup_cons_self, List.lookup_cons_self, Option.getD_some]
      · next otherKey =>
          obtain ⟨above, restOrdered⟩ := List.pairwise_cons.mp ordered
          split
          · next before =>
            have less : source.name < key.name := of_decide_eq_true before
            have absent : ((key, held) :: rest).lookup source = none := by
              rw [List.lookup_eq_none_iff]
              intro group member
              refine bne_iff_ne.mpr fun same => ?_
              subst same
              rcases List.mem_cons.mp member with rfl | later
              · exact String.lt_irrefl _ less
              · exact String.lt_asymm less (above group later)
            rw [List.lookup_cons_self, absent, Option.getD_none]
          · rw [lookup_cons_of_ne otherKey, lookup_cons_of_ne otherKey, ih restOrdered]

theorem lookup_alter_of_ne {change : List Concept → List Concept} {source other : SourceId}
    (different : other ≠ source) (groups : SourceGroups) :
    (alter change source groups).lookup other = groups.lookup other := by
  induction groups with
  | nil => exact lookup_cons_of_ne different
  | cons first rest ih =>
      obtain ⟨key, held⟩ := first
      rw [alter]
      split
      · next isKey =>
          have notKey : other ≠ key := isKey ▸ different
          rw [lookup_cons_of_ne notKey, lookup_cons_of_ne notKey]
      · split
        · exact lookup_cons_of_ne different
        · rw [List.lookup_cons, List.lookup_cons, ih]

end SourceGroups

namespace ConceptGroups

section

variable {decode : Json → Option (List Concept)} {members : List (String × Json)}

theorem isSome_ofMembers?_iff {grouped : ConceptGroups} :
    (grouped.ofMembers? decode members).isSome ↔
      ∀ member ∈ members, (decode member.2).isSome := by
  induction members generalizing grouped with
  | nil => simp [ofMembers?]
  | cons member rest ih =>
      obtain ⟨name, value⟩ := member
      cases reads : decode value with
      | none => simp [ofMembers?, reads]
      | some concepts => simp [ofMembers?, reads, ih]

/-- Of several members with the name of a source the last one is its group. -/
theorem lookup_of_ofMembers? {before after : ConceptGroups}
    (reads : before.ofMembers? decode members = some after) (source : SourceId) :
    after.groups.lookup source =
      ((members.reverse.lookup source.name).bind decode).or (before.groups.lookup source) := by
  induction members generalizing before with
  | nil => simp_all [ofMembers?]
  | cons member rest ih =>
      obtain ⟨name, value⟩ := member
      cases readsFirst : decode value with
      | none => simp [ofMembers?, readsFirst] at reads
      | some concepts =>
          simp only [ofMembers?, readsFirst] at reads
          rw [ih reads, List.reverse_cons, List.lookup_append, replace]
          by_cases same : source = ⟨name⟩
          · subst same
            rw [SourceGroups.lookup_alter_self before.ordered, List.lookup_cons_self]
            cases later : rest.reverse.lookup name with
            | none => simp [readsFirst]
            | some last =>
                have readable := isSome_ofMembers?_iff.mp (Option.isSome_of_eq_some reads)
                  (name, last) (List.mem_reverse.mp (mem_of_lookup later))
                obtain ⟨lastConcepts, readsLast⟩ := Option.isSome_iff_exists.mp readable
                simp [readsLast]
          · have notName : source.name ≠ name := fun equal => same (congrArg SourceId.mk equal)
            rw [SourceGroups.lookup_alter_of_ne same, lookup_cons_of_ne notName]
            simp

end

theorem isSome_ofJson?_iff {json : Json} :
    (ofJson? json).isSome ↔
      ∃ members, json = .object members ∧ ∀ member ∈ members, member.2.IsListing := by
  cases json with
  | object members =>
      simp only [ofJson?, Json.members?, Option.bind_some, isSome_ofMembers?_iff,
        Concept.isSome_readableOnes?_iff, Json.object.injEq, exists_eq_left']
  | null | bool _ | number _ | string _ | array _ => simp [ofJson?, Json.members?]

theorem nodup_sources (grouped : ConceptGroups) : grouped.sources.Nodup := by
  refine List.pairwise_map.mpr (grouped.ordered.imp fun {left right} less same => ?_)
  exact String.lt_irrefl _ (same ▸ less)

theorem mem_groups_of_ofJson? {json : Json} {grouped : ConceptGroups}
    (reads : ofJson? json = some grouped) {source : SourceId} {concepts : List Concept} :
    (source, concepts) ∈ grouped.groups ↔
      ∃ value, json.member? source.name = some value ∧
        concepts = value.entries.filterMap Concept.ofJson? := by
  obtain ⟨members, rfl, listings⟩ := isSome_ofJson?_iff.mp (Option.isSome_of_eq_some reads)
  have contents : grouped.groups.lookup source =
      ((members.reverse.lookup source.name).bind Concept.readableOnes?).or none :=
    lookup_of_ofMembers? reads source
  have isGroup : (source, concepts) ∈ grouped.groups ↔
      grouped.groups.lookup source = some concepts :=
    ⟨lookup_of_mem_nodup grouped.nodup_sources, mem_of_lookup⟩
  rw [isGroup, contents, Option.or_none, Option.bind_eq_some_iff]
  refine exists_congr fun value => and_congr_right fun found => ?_
  have listing := listings _ (List.mem_reverse.mp (mem_of_lookup found))
  rw [Concept.readableOnes?_eq_some_iff]
  exact ⟨fun listed => listed.2, fun same => ⟨listing, same⟩⟩

end ConceptGroups

/-- A list keeps its readable entries, a neighbourhood needs a readable focal concept, and a concept
keeps its accepted references if all are texts. -/
theorem readers_skip_what_is_unusable :
    (∀ json, (ConceptGroups.ofJson? json).isSome ↔
      ∃ members, json = .object members ∧ ∀ member ∈ members, member.2.IsListing) ∧
    (∀ json grouped, ConceptGroups.ofJson? json = some grouped →
      ∀ source concepts, (source, concepts) ∈ grouped.groups ↔
        ∃ value, json.member? source.name = some value ∧
          concepts = value.entries.filterMap Concept.ofJson?) ∧
    (∀ first second, ∃ ofFirst ofSecond,
      Concept.readableOnes? (.array first) = some ofFirst ∧
      Concept.readableOnes? (.array second) = some ofSecond ∧
      ofFirst = first.filterMap Concept.ofJson? ∧
      Concept.readableOnes? (.array (first ++ second)) = some (ofFirst ++ ofSecond)) ∧
    (∀ json hierarchy, Neighbourhood.ofJson? json = some hierarchy ↔
      Neighbourhood.ReadFrom json hierarchy) ∧
    (∀ json concept, Concept.ofJson? json = some concept ↔ Concept.ReadFrom json concept) ∧
    (∀ text iri, Iri.ofText text = .ok iri ↔ iri.text = text) ∧
    (∀ text, (Iri.ofText text).isOk ↔
      text ≠ "" ∧ ∀ c ∈ text.toList, Text.isBlank c = false) := by
  refine ⟨fun _ => ConceptGroups.isSome_ofJson?_iff,
    fun _ _ reads _ _ => ConceptGroups.mem_groups_of_ofJson? reads, fun first second => ?_,
    fun _ _ => Neighbourhood.ofJson?_eq_some_iff, fun _ _ => Concept.ofJson?_eq_some_iff,
    fun _ _ => Iri.ofText_eq_ok_iff, fun _ => Iri.isOk_ofText_iff⟩
  exact ⟨_, _, rfl, rfl, rfl, congrArg some List.filterMap_append⟩

theorem readers_skip_what_is_unusable_of_mixed_entries :
    let entry (parents : List Json) : Json :=
      .object [("iri", .string "A"), ("concept_type", .string "class"),
        ("parent_concepts", .array parents), ("domain", .string "")]
    let kept := entry [.string "B", .null, .string "no iri", .string "B"]
    let skipped := entry [.string "B", .bool true]
    let concept : Concept :=
      { iri := ⟨"A", by decide⟩, conceptType := .ontologyClass
        parents := [⟨"B", by decide⟩, ⟨"B", by decide⟩] }
    Concept.ofJson? kept = some concept ∧ Concept.ofJson? skipped = none ∧
      Neighbourhood.ofJson? (.array [kept, .null, .array [skipped, kept]]) =
        some { concept, children := [concept] } ∧
      ∃ grouped,
        ConceptGroups.ofJson? (.object [("core", .array [skipped, kept]), ("more", .null)]) =
          some grouped ∧
        (⟨"core"⟩, [concept]) ∈ grouped.groups ∧ (⟨"more"⟩, []) ∈ grouped.groups := by
  intro entry kept skipped concept
  obtain ⟨accepts, contents, _, around, decodes, identifies, _⟩ := readers_skip_what_is_unusable
  have nothing {α : Type} (text : α → String) : Json.OptionalText text none none :=
    Json.optionalText_none_iff.mpr rfl
  have keptReads : Concept.ofJson? kept = some concept := by
    refine (decodes kept concept).mpr
      { shape := .object _ (by decide), iri := rfl, label := nothing id, conceptType := .inl rfl
        parents := ⟨.inr ⟨_, rfl⟩, ?texts, ?identifiers⟩, children := rfl, source := nothing _
        domain := ⟨?text, ?empty⟩, range := nothing _, comment := nothing id }
    case texts => simp [Json.entries, Json.IsOptionalText]
    case identifiers => rfl
    case text => exact fun json given => .inr ⟨"", (Option.mem_some.mp given).symm⟩
    case empty =>
      refine fun iri => iff_of_false nofun fun same => ?_
      nomatch (identifies "" iri).mpr (Json.string.inj (Option.some.inj same)).symm
  have skippedFails : Concept.ofJson? skipped = none := by
    refine Option.eq_none_iff_forall_ne_some.mpr fun other reads => ?_
    obtain ⟨_, texts, _⟩ := ((decodes skipped other).mp reads).parents
    rcases texts (.bool true) (by simp [Json.entries]) with same | ⟨_, same⟩ <;> nomatch same
  have entries : [concept] = [skipped, kept].filterMap Concept.ofJson? := by
    simp [keptReads, skippedFails]
  have listings : (ConceptGroups.ofJson?
      (.object [("core", .array [skipped, kept]), ("more", .null)])).isSome :=
    (accepts _).mpr ⟨_, rfl, by simp [Json.IsListing]⟩
  obtain ⟨grouped, reads⟩ := Option.isSome_iff_exists.mp listings
  refine ⟨keptReads, skippedFails, ?_, grouped, reads, ?core, ?more⟩
  · exact (around _ _).mpr
      { shape := .array _ (by decide), concept := ⟨kept, rfl, (decodes _ _).mp keptReads⟩
        parents := ⟨.inl rfl, rfl⟩, children := ⟨.inr ⟨_, rfl⟩, entries⟩, siblings := rfl }
  case core => exact (contents _ _ reads _ _).mpr ⟨_, rfl, entries⟩
  case more => exact (contents _ _ reads _ _).mpr ⟨_, rfl, rfl⟩

end CatalogBrowser
