import CatalogBrowser.Concept.Json

/-!
Concepts by the source they came from.

The groups are sorted by the name of their source, and every source has one group.
-/

namespace CatalogBrowser

abbrev SourceGroups := List (SourceId × List Concept)

namespace SourceGroups

def Ordered (groups : SourceGroups) : Prop :=
  groups.Pairwise fun left right => left.1.name < right.1.name

def alter (change : List Concept → List Concept) (source : SourceId) : SourceGroups → SourceGroups
  | [] => [(source, change [])]
  | (key, held) :: rest =>
    if source = key then (key, change held) :: rest
    else if source.before key then (source, change []) :: (key, held) :: rest
    else (key, held) :: alter change source rest

theorem mem_alter {change : List Concept → List Concept} {source : SourceId}
    {groups : SourceGroups} {group : SourceId × List Concept}
    (member : group ∈ alter change source groups) :
    group.1 = source ∨ ∃ held, (group.1, held) ∈ groups := by
  induction groups with
  | nil => simp only [alter, List.mem_singleton] at member; simp [member]
  | cons first rest ih =>
    obtain ⟨key, held⟩ := first
    simp only [alter] at member
    split at member
    · next same =>
      rcases List.mem_cons.mp member with here | later
      · exact .inl (here ▸ same.symm)
      · exact .inr ⟨group.2, List.mem_cons_of_mem _ later⟩
    · split at member
      · rcases List.mem_cons.mp member with here | later
        · exact .inl (here ▸ rfl)
        · exact .inr ⟨group.2, later⟩
      · rcases List.mem_cons.mp member with here | later
        · exact .inr ⟨held, by rw [here]; exact List.mem_cons_self⟩
        · rcases ih later with same | ⟨held, found⟩
          · exact .inl same
          · exact .inr ⟨held, List.mem_cons_of_mem _ found⟩

theorem ordered_alter {change : List Concept → List Concept} {source : SourceId}
    {groups : SourceGroups} (ordered : Ordered groups) : Ordered (alter change source groups) := by
  induction groups with
  | nil => simp [alter, Ordered]
  | cons first rest ih =>
    obtain ⟨key, held⟩ := first
    have above := (List.pairwise_cons.mp ordered).1
    have tail := (List.pairwise_cons.mp ordered).2
    simp only [alter]
    split
    · exact List.pairwise_cons.mpr ⟨above, tail⟩
    · next other =>
      split
      · next before =>
        have smaller : source.name < key.name := of_decide_eq_true before
        refine List.pairwise_cons.mpr ⟨fun group member => ?_, ordered⟩
        rcases List.mem_cons.mp member with here | later
        · exact here ▸ smaller
        · exact String.lt_trans smaller (above group later)
      · next notBefore =>
        have larger : key.name < source.name := by
          have notLess : ¬ source.name < key.name := fun less =>
            notBefore (decide_eq_true less)
          rcases Decidable.em (key.name < source.name) with less | notGreater
          · exact less
          · have same := String.le_antisymm notGreater notLess
            exact absurd (by cases source; cases key; simp_all) other
        refine List.pairwise_cons.mpr ⟨fun group member => ?_, ih tail⟩
        rcases mem_alter member with same | ⟨held, found⟩
        · exact same ▸ larger
        · exact above (group.1, held) found

end SourceGroups

structure ConceptGroups where
  groups : SourceGroups := []
  ordered : SourceGroups.Ordered groups := by exact List.Pairwise.nil

namespace ConceptGroups

def empty : ConceptGroups := {}

def insert (grouped : ConceptGroups) (source : SourceId) (concepts : List Concept) :
    ConceptGroups :=
  ⟨SourceGroups.alter (· ++ concepts) source grouped.groups,
    SourceGroups.ordered_alter grouped.ordered⟩

def replace (grouped : ConceptGroups) (source : SourceId) (concepts : List Concept) :
    ConceptGroups :=
  ⟨SourceGroups.alter (fun _ => concepts) source grouped.groups,
    SourceGroups.ordered_alter grouped.ordered⟩

def sources (grouped : ConceptGroups) : List SourceId := grouped.groups.map Prod.fst

def isEmpty (grouped : ConceptGroups) : Bool := grouped.groups.all fun group => group.2.isEmpty

def inheritSource (source : SourceId) (concept : Concept) : Concept :=
  { concept with source := some (concept.source.getD source) }

/-- All concepts in the order of their sources; of several with one identifier the first stays. -/
def flatten (grouped : ConceptGroups) : List Concept :=
  Concept.firstOfEach (grouped.groups.flatMap fun group => group.2.map (inheritSource group.1))

/-- Reads the groups of an object in order; a source that comes again replaces its group. -/
def ofMembers? (decode : Json → Option (List Concept)) (grouped : ConceptGroups) :
    List (String × Json) → Option ConceptGroups
  | [] => some grouped
  | (name, value) :: rest =>
    match decode value with
    | some concepts => (grouped.replace ⟨name⟩ concepts).ofMembers? decode rest
    | none => none

def ofJson? (json : Json) : Option ConceptGroups :=
  json.members?.bind (ofMembers? Concept.readableOnes? empty)

def toJson (grouped : ConceptGroups) : Json :=
  .object (grouped.groups.map fun group =>
    (group.1.name, .array (group.2.map Concept.toJson)))

end ConceptGroups

end CatalogBrowser
