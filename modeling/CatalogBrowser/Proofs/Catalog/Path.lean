import CatalogBrowser.Catalog.Path
import Mathlib.Data.List.TakeWhile

/-!
Which texts are ids of catalog nodes, and which path each of them names.
-/

namespace CatalogBrowser

namespace NodePath

structure Plain (segment : String) : Prop where
  nonempty : segment ≠ ""
  undotted : '.' ∉ segment.toList

/-- The id that names a path.  Only the last of three segments may have dots of its own. -/
inductive Spells : NodePath → String → Prop
  | catalog {catalog} : Plain catalog → Spells { catalog } catalog
  | schema {catalog schema} : Plain catalog → Plain schema →
      Spells { catalog, schema := some schema } (catalog ++ "." ++ schema)
  | object {catalog schema object} : Plain catalog → Plain schema → object ≠ "" →
      Spells { catalog, schema := some schema, object := some object }
        (catalog ++ "." ++ schema ++ "." ++ object)

theorem Plain.count_eq_zero {segment : String} (plain : Plain segment) :
    segment.toList.count '.' = 0 := List.count_eq_zero.mpr plain.undotted

theorem count_dotted (front rest : String) : (front ++ "." ++ rest).toList.count '.' =
    front.toList.count '.' + rest.toList.count '.' + 1 := by
  simp [String.toList_append, Nat.add_assoc]

/-! Cutting at the first two dots -/

theorem cut_of_notMem {chars : List Char} (undotted : '.' ∉ chars) : cut chars = (chars, none) := by
  have plain : ∀ char ∈ chars, decide (char ≠ '.') = true := by grind
  rw [cut, List.takeWhile_eq_self_iff.mpr plain, List.dropWhile_eq_nil_iff.mpr plain]

theorem cut_append {front : List Char} (undotted : '.' ∉ front) (rest : List Char) :
    cut (front ++ '.' :: rest) = (front, some rest) := by
  have plain : ∀ char ∈ front, decide (char ≠ '.') = true := by grind
  rw [cut, List.takeWhile_append_of_pos plain, List.dropWhile_append_of_pos plain]
  simp

inductive Splits : List Char → List (List Char) → Prop
  | one {catalog} : '.' ∉ catalog → Splits catalog [catalog]
  | two {catalog schema} : '.' ∉ catalog → '.' ∉ schema →
      Splits (catalog ++ '.' :: schema) [catalog, schema]
  | three {catalog schema} (object : List Char) : '.' ∉ catalog → '.' ∉ schema →
      Splits (catalog ++ '.' :: (schema ++ '.' :: object)) [catalog, schema, object]

theorem segments_splits (chars : List Char) : Splits chars (segments chars) := by
  by_cases dotted : '.' ∈ chars
  · obtain ⟨catalog, rest, rfl, first⟩ := List.eq_append_cons_of_mem dotted
    by_cases again : '.' ∈ rest
    · obtain ⟨schema, object, rfl, second⟩ := List.eq_append_cons_of_mem again
      simp only [segments, cut_append first, cut_append second]
      exact .three object first second
    · simp only [segments, cut_append first, cut_of_notMem again]
      exact .two first again
  · simp only [segments, cut_of_notMem dotted]
    exact .one dotted

/-! The parts of a text -/

/-- The parts between the dots of a text, where the third part is all of the rest. -/
def leadingParts (chars : List Char) : List (List Char) :=
  match chars.splitOn '.' with
  | catalog :: schema :: object :: more => [catalog, schema, ['.'].intercalate (object :: more)]
  | parts => parts

theorem splitOn_of_notMem {chars : List Char} (undotted : '.' ∉ chars) :
    chars.splitOn '.' = [chars] := by
  have plain : ∀ char ∈ chars, (char == '.') = false := by grind
  rw [List.splitOn_eq_splitOnP, List.splitOnP_eq_singleton plain]

theorem splitOn_append {front : List Char} (undotted : '.' ∉ front) (rest : List Char) :
    (front ++ '.' :: rest).splitOn '.' = front :: rest.splitOn '.' := by
  have plain : ∀ char ∈ front, (char == '.') = false := by grind
  rw [List.splitOn_eq_splitOnP, List.splitOn_eq_splitOnP,
    List.splitOnP_append_cons_of_forall_mem plain _ rfl]

theorem leadingParts_of_splits {chars : List Char} {parts : List (List Char)}
    (splits : Splits chars parts) : leadingParts chars = parts := by
  cases splits with
  | one first => rw [leadingParts, splitOn_of_notMem first]
  | two first second => rw [leadingParts, splitOn_append first, splitOn_of_notMem second]
  | three object first second =>
      obtain ⟨part, more, last⟩ := List.exists_cons_of_ne_nil (List.splitOn_ne_nil '.' object)
      have whole : ['.'].intercalate (part :: more) = object := by
        rw [← last, List.intercalate_splitOn]
      rw [leadingParts, splitOn_append first, splitOn_append second, last]
      simp only [whole]

theorem leadingParts_eq_segments (chars : List Char) : leadingParts chars = segments chars :=
  leadingParts_of_splits (segments_splits chars)

/-! Reading an id -/

theorem ofText_of_spells {path : NodePath} {id : String} (spells : path.Spells id) :
    ofText id = .ok path := by
  cases spells with
  | catalog plain =>
      simp [ofText, segments, cut_of_notMem plain.undotted, plain.nonempty]
  | schema first second =>
      simp [ofText, segments, cut_append first.undotted, cut_of_notMem second.undotted,
        first.nonempty, second.nonempty]
  | object first second last =>
      simp [ofText, segments, cut_append first.undotted, cut_append second.undotted,
        first.nonempty, second.nonempty, last]

theorem ofList_dotted (front rest : List Char) :
    String.ofList (front ++ '.' :: rest) = String.ofList front ++ "." ++ String.ofList rest := by
  rw [List.append_cons, String.ofList_append, String.ofList_append]

theorem exists_spells {chars : List Char} {parts : List (List Char)} (splits : Splits chars parts)
    (filled : [] ∉ parts) : ∃ path : NodePath, path.Spells (String.ofList chars) := by
  have nonempty {part : List Char} (member : part ∈ parts) : String.ofList part ≠ "" := by
    rw [Ne, String.ofList_eq_empty_iff]
    exact fun empty => filled (empty ▸ member)
  have plain {part : List Char} (member : part ∈ parts) (undotted : '.' ∉ part) :
      Plain (String.ofList part) := ⟨nonempty member, by simpa using undotted⟩
  cases splits with
  | one first => exact ⟨_, .catalog (plain (by simp) first)⟩
  | two first second =>
      rw [ofList_dotted]
      exact ⟨_, .schema (plain (by simp) first) (plain (by simp) second)⟩
  | three object first second =>
      rw [ofList_dotted, ofList_dotted, ← String.append_assoc, ← String.append_assoc]
      exact ⟨_, .object (plain (by simp) first) (plain (by simp) second) (nonempty (by simp))⟩

theorem ofText_of_empty {id : String} (empty : [] ∈ segments id.toList) : ofText id =
    .error (.validation "catalog node id" ("`" ++ id ++ "` contains an empty segment")) := by
  have found : (segments id.toList).any List.isEmpty = true := by simpa using empty
  rw [ofText, if_pos found]

theorem exists_spells_of_filled {id : String} (filled : [] ∉ segments id.toList) :
    ∃ path : NodePath, path.Spells id := by
  simpa using exists_spells (segments_splits id.toList) filled

theorem ofText_cases (id : String) :
    (∃ path, ofText id = .ok path ∧ path.Spells id) ∨
      ofText id =
        .error (.validation "catalog node id" ("`" ++ id ++ "` contains an empty segment")) := by
  by_cases empty : [] ∈ segments id.toList
  · exact Or.inr (ofText_of_empty empty)
  · obtain ⟨path, spells⟩ := exists_spells_of_filled empty
    exact Or.inl ⟨path, ofText_of_spells spells, spells⟩

theorem ofText_eq_error_iff {id : String} {error : Error} : ofText id = .error error ↔
    [] ∈ segments id.toList ∧
      error = .validation "catalog node id" ("`" ++ id ++ "` contains an empty segment") := by
  constructor
  · intro failed
    by_cases empty : [] ∈ segments id.toList
    · rw [ofText_of_empty empty] at failed
      exact ⟨empty, (Except.error.inj failed).symm⟩
    · obtain ⟨path, spells⟩ := exists_spells_of_filled empty
      rw [ofText_of_spells spells] at failed
      cases failed
  · rintro ⟨empty, rfl⟩
    exact ofText_of_empty empty

theorem ofText_eq_ok_iff {id : String} {path : NodePath} :
    ofText id = .ok path ↔ path.Spells id := by
  refine ⟨fun read => ?_, ofText_of_spells⟩
  rcases ofText_cases id with ⟨found, ok, spells⟩ | failed
  · rwa [Except.ok.inj (read.symm.trans ok)]
  · rw [failed] at read
    cases read

/-! The parts of a path -/

def parts (path : NodePath) : List String :=
  path.catalog :: (path.schema.toList ++ path.object.toList)

structure Joins (path : NodePath) (id : String) : Prop where
  joined : ".".intercalate path.parts = id
  filled : "" ∉ path.parts
  undotted : ∀ part ∈ path.catalog :: path.schema.toList, '.' ∉ part.toList
  nested : path.object.isSome → path.schema.isSome

theorem joins_of_spells {path : NodePath} {id : String} (spells : path.Spells id) :
    path.Joins id := by
  cases spells with
  | catalog plain =>
      refine ⟨String.intercalate_singleton, ?_, ?_, nofun⟩
      · simpa [parts] using plain.nonempty.symm
      · simpa using plain.undotted
  | schema first second =>
      refine ⟨?_, ?_, ?_, nofun⟩
      · simp [parts, String.intercalate_cons_cons]
      · simp [parts, first.nonempty.symm, second.nonempty.symm]
      · simp [first.undotted, second.undotted]
  | object first second last =>
      refine ⟨?_, ?_, ?_, fun _ => rfl⟩
      · simp [parts, String.intercalate_cons_cons, String.append_assoc]
      · simp [parts, first.nonempty.symm, second.nonempty.symm, last.symm]
      · simp [first.undotted, second.undotted]

theorem spells_of_joins {path : NodePath} {id : String} (joins : path.Joins id) :
    path.Spells id := by
  obtain ⟨rfl, filled, undotted, nested⟩ := joins
  have plain {part : String} (member : part ∈ path.catalog :: path.schema.toList) : Plain part :=
    ⟨fun empty => filled (empty ▸ List.mem_append_left path.object.toList member),
      undotted part member⟩
  rcases path with ⟨catalog, _ | schema, _ | object⟩
  · simpa [parts] using Spells.catalog (plain (by simp))
  · cases nested rfl
  · simpa [parts, String.intercalate_cons_cons] using
      Spells.schema (plain (by simp)) (plain (by simp))
  · have last : object ≠ "" := fun empty => filled (by simp [parts, empty])
    simpa [parts, String.intercalate_cons_cons, String.append_assoc] using
      Spells.object (plain (by simp)) (plain (by simp)) last

/-- An id is read as the one path whose parts it joins by dots, and fails exactly at an empty
leading part. -/
theorem ids_read_by_parts :
    (∀ id error, ofText id = .error error ↔
      (id = "" ∨ [] ∈ leadingParts id.toList) ∧
        error = .validation "catalog node id" ("`" ++ id ++ "` contains an empty segment")) ∧
    (∀ id path, ofText id = .ok path ↔ path.Joins id) ∧
    ∀ catalog schema object, Plain catalog → Plain schema → object ≠ "" →
      ofText catalog = .ok { catalog } ∧
      ofText (catalog ++ "." ++ schema) = .ok { catalog, schema := some schema } ∧
      ofText (catalog ++ "." ++ schema ++ "." ++ object) =
        .ok { catalog, schema := some schema, object := some object } := by
  refine ⟨fun id error => ?_, fun id path => ?_, fun catalog schema object first second last => ?_⟩
  · have blank : id = "" → [] ∈ leadingParts id.toList := by
      rintro rfl
      decide
    rw [or_iff_right_of_imp blank, leadingParts_eq_segments, ofText_eq_error_iff]
  · exact ofText_eq_ok_iff.trans ⟨joins_of_spells, spells_of_joins⟩
  · exact ⟨ofText_of_spells (.catalog first), ofText_of_spells (.schema first second),
      ofText_of_spells (.object first second last)⟩

theorem ids_read_by_parts_of_dotted_object :
    Plain "main" ∧ Plain "sales" ∧ ".v2." ≠ "" ∧
      ofText "main.sales..v2." =
        .ok { catalog := "main", schema := some "sales", object := some ".v2." } ∧
      ofText "main..orders" =
        .error (.validation "catalog node id" "`main..orders` contains an empty segment") := by
  have first : Plain "main" := ⟨by decide, by decide⟩
  have second : Plain "sales" := ⟨by decide, by decide⟩
  have last : ".v2." ≠ "" := by decide
  obtain ⟨fails, _, reads⟩ := ids_read_by_parts
  have missing : [] ∈ leadingParts "main..orders".toList := by decide
  exact ⟨first, second, last, (reads _ _ _ first second last).2.2,
    (fails "main..orders" _).mpr ⟨.inr missing, by decide⟩⟩

end NodePath

end CatalogBrowser
