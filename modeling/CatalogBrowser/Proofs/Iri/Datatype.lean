import CatalogBrowser.Iri.Datatype
import CatalogBrowser.Proofs.Iri.LocalName

/-!
Which texts name a literal datatype.

The rule goes by namespaces, short forms and known names.  A text is also taken for a datatype when
`XMLSchema#` stands anywhere in it, be it in another namespace.
-/

namespace CatalogBrowser.Iri

/-- Texts in the schema namespace or with its short form, the known types, and the names of these,
bare or with another short form. -/
def NamesDatatype (text : String) : Prop :=
  schemaNamespace.toList <+: text.toList ∨ "xsd:".toList <+: text.toList ∨ text ∈ literalTypes ∨
    ∃ type ∈ literalTypes, ∃ space ∈ ["", "rdf:", "rdfs:"],
      text = space ++ String.ofList (localChars type.toList)

instance : DecidablePred NamesDatatype := fun _ => inferInstanceAs (Decidable (_ ∨ _))

/-! Local names of the known types -/

theorem localChars_append {front name : List Char} {c : Char} (separator : isSeparator c = true)
    (nonempty : name ≠ []) (plain : ∀ c ∈ name, isSeparator c = false) :
    localChars (front ++ c :: name) = name := by
  have last : lastRun (front ++ c :: name) = name := by
    simpa [separator] using
      @lastRun_append (front ++ [c]) name [] nonempty plain fun _ member => by cases member
  rw [localChars_eq, last, if_neg (by simpa using nonempty)]

theorem plain_of_mem_literalTypeNames : ∀ name ∈ literalTypeNames,
    name.toList ≠ [] ∧ ∀ c ∈ name.toList, isSeparator c = false := by
  simp [literalTypeNames, schemaTypeNames, isSeparator]

theorem localChars_fragment {type name : String} (front : String)
    (parts : type = front ++ "#" ++ name) (listed : name ∈ literalTypeNames) :
    String.ofList (localChars type.toList) = name := by
  obtain ⟨nonempty, plain⟩ := plain_of_mem_literalTypeNames name listed
  have named : localChars (front.toList ++ '#' :: name.toList) = name.toList :=
    localChars_append rfl nonempty plain
  rw [parts, String.toList_append, String.toList_append, List.append_assoc]
  exact (congrArg String.ofList named).trans String.ofList_toList

theorem exists_literalType_iff (holds : String → Prop) :
    (∃ type ∈ literalTypes, holds (String.ofList (localChars type.toList))) ↔
      ∃ name ∈ literalTypeNames, holds name := by
  have namespaceEnds : schemaNamespace = "http://www.w3.org/2001/XMLSchema" ++ "#" := by decide
  have schema : (∃ type ∈ schemaTypeNames.map (schemaNamespace ++ ·),
      holds (String.ofList (localChars type.toList))) ↔ ∃ name ∈ schemaTypeNames, holds name := by
    simp only [List.mem_map, exists_exists_and_eq_and]
    refine exists_congr fun name => and_congr_right fun listed => ?_
    rw [localChars_fragment _ (congrArg (· ++ name) namespaceEnds) (List.mem_append_left _ listed)]
  have langString : String.ofList
      (localChars "http://www.w3.org/1999/02/22-rdf-syntax-ns#langString".toList) = "langString" :=
    localChars_fragment "http://www.w3.org/1999/02/22-rdf-syntax-ns" (by decide)
      (by decide)
  have literal : String.ofList
      (localChars "http://www.w3.org/2000/01/rdf-schema#Literal".toList) = "Literal" :=
    localChars_fragment "http://www.w3.org/2000/01/rdf-schema" (by decide) (by decide)
  simp only [literalTypes, literalTypeNames, List.mem_append, or_and_right, exists_or, schema,
    List.mem_cons, List.not_mem_nil, or_false, exists_eq_left, langString, literal]

/-! The name that is looked up -/

theorem datatypeName?_append (space : List Char) (absent : ':' ∉ space) (name : List Char) :
    datatypeName? (space ++ ':' :: name) =
      if String.ofList space = "rdf" || String.ofList space = "rdfs" then some name else none := by
  have passed : ∀ c ∈ space, (c != ':') = true := by grind
  rw [datatypeName?, List.dropWhile_append_of_pos passed, List.takeWhile_append_of_pos passed,
    List.takeWhile_cons_of_neg (by simp), List.append_nil, List.dropWhile_cons_of_neg (by simp)]
  rfl

theorem datatypeName?_of_notMem {chars : List Char} (absent : ':' ∉ chars) :
    datatypeName? chars =
      if chars.any fun c => c = '#' || c = '/' then none else some chars := by
  have passed : ∀ c ∈ chars, (c != ':') = true := by grind
  rw [datatypeName?, List.dropWhile_eq_nil_iff.mpr passed]

theorem datatypeName?_eq_some_iff {text name : String}
    (plain : ∀ c ∈ name.toList, isSeparator c = false) :
    datatypeName? text.toList = some name.toList ↔
      ∃ space ∈ ["", "rdf:", "rdfs:"], text = space ++ name := by
  constructor
  · intro found
    by_cases colon : ':' ∈ text.toList
    · obtain ⟨space, rest, parts, absent⟩ := List.eq_append_cons_of_mem colon
      rw [parts, datatypeName?_append space absent] at found
      split at found
      · next known =>
        obtain rfl := Option.some.inj found
        have whole : text = String.ofList space ++ ":" ++ name := by
          rw [← String.toList_inj, parts]
          simp
        rcases Bool.or_eq_true_iff.mp known with rdf | rdfs
        · exact ⟨"rdf:", by simp, by rw [whole, of_decide_eq_true rdf]; rfl⟩
        · exact ⟨"rdfs:", by simp, by rw [whole, of_decide_eq_true rdfs]; rfl⟩
      · cases found
    · rw [datatypeName?_of_notMem colon] at found
      split at found
      · cases found
      · have whole : text = name := String.toList_inj.mp (Option.some.inj found)
        exact ⟨"", by simp, by rw [whole, String.empty_append]⟩
  · rintro ⟨space, listed, rfl⟩
    have absent : ':' ∉ name.toList := fun member => Bool.noConfusion (plain ':' member)
    simp only [List.mem_cons, List.not_mem_nil, or_false] at listed
    rcases listed with rfl | rfl | rfl
    · rw [String.empty_append, datatypeName?_of_notMem absent, if_neg]
      rw [List.any_eq_true]
      rintro ⟨c, member, separator⟩
      have other := plain c member
      grind [isSeparator]
    · rw [String.toList_append]
      exact (datatypeName?_append "rdf".toList (by decide) name.toList).trans rfl
    · rw [String.toList_append]
      exact (datatypeName?_append "rdfs".toList (by decide) name.toList).trans rfl

theorem isLiteralChars_iff {chars : List Char} : isLiteralChars chars = true ↔
    "XMLSchema#".toList <:+: chars ∨ "xsd:".toList <+: chars ∨
      String.ofList chars ∈ literalTypes ∨
        ∃ name ∈ literalTypeNames, datatypeName? chars = some name.toList := by
  simp only [isLiteralChars, Bool.or_eq_true, Text.occursIn_iff_isInfix,
    List.isPrefixOf_iff_prefix, List.contains_iff_mem, or_assoc]
  refine or_congr_right (or_congr_right (or_congr_right ?_))
  cases datatypeName? chars with
  | none => simp
  | some own =>
      refine List.contains_iff_mem.trans ⟨fun listed => ?_, ?_⟩
      · exact ⟨_, listed, congrArg some String.toList_ofList.symm⟩
      · rintro ⟨name, listed, same⟩
        rwa [Option.some.inj same, String.ofList_toList]

theorem or_infix_iff {chars : List Char} {other : Prop} :
    (schemaNamespace.toList <+: chars ∨ other) ∨ "XMLSchema#".toList <:+: chars ↔
      "XMLSchema#".toList <:+: chars ∨ other := by
  have ends : "XMLSchema#".toList <:+ schemaNamespace.toList :=
    ⟨"http://www.w3.org/2001/".toList, by decide⟩
  have within : schemaNamespace.toList <+: chars → "XMLSchema#".toList <:+: chars :=
    fun leads => ends.isInfix.trans leads.isInfix
  rw [or_right_comm, or_iff_right_of_imp within]

theorem isLiteralType_iff (iri : Iri) : iri.isLiteralType = true ↔
    NamesDatatype iri.text ∨ "XMLSchema#".toList <:+: iri.text.toList := by
  have named : (∃ name ∈ literalTypeNames, datatypeName? iri.text.toList = some name.toList) ↔
      ∃ type ∈ literalTypes, ∃ space ∈ ["", "rdf:", "rdfs:"],
        iri.text = space ++ String.ofList (localChars type.toList) := by
    rw [exists_literalType_iff fun name =>
      ∃ space ∈ ["", "rdf:", "rdfs:"], iri.text = space ++ name]
    exact exists_congr fun name => and_congr_right fun listed =>
      datatypeName?_eq_some_iff (plain_of_mem_literalTypeNames name listed).2
  rw [isLiteralType, isLiteralChars_iff, String.ofList_toList, named, NamesDatatype, or_infix_iff]

/-! Texts with a scheme -/

theorem eq_of_append_colon {scheme other rest more : List Char} (absent : ':' ∉ scheme)
    (otherAbsent : ':' ∉ other) (same : scheme ++ ':' :: rest = other ++ ':' :: more) :
    scheme = other := by
  have cut : ∀ {front : List Char}, ':' ∉ front → ∀ back,
      (front ++ ':' :: back).takeWhile (fun c => c ≠ ':') = front := by
    intro front absent back
    rw [List.takeWhile_append_of_pos (by grind)]
    simp
  rw [← cut absent rest, same, cut otherAbsent]

theorem namesDatatype_iff_of_scheme {text : String} {scheme rest : List Char}
    (parts : text.toList = scheme ++ ':' :: rest) (absent : ':' ∉ scheme)
    (long : String.ofList scheme ∉ ["xsd", "rdf", "rdfs"]) :
    NamesDatatype text ↔ schemaNamespace.toList <+: text.toList ∨
      text ∈ ["http://www.w3.org/1999/02/22-rdf-syntax-ns#langString",
        "http://www.w3.org/2000/01/rdf-schema#Literal"] := by
  have otherScheme : ∀ space ∈ ["xsd", "rdf", "rdfs"], ∀ more,
      text.toList ≠ space.toList ++ ':' :: more := by
    intro space listed more same
    have plain : ∀ space ∈ ["xsd", "rdf", "rdfs"], ':' ∉ space.toList := by decide
    have equal := eq_of_append_colon absent (plain space listed) (parts.symm.trans same)
    rw [equal, String.ofList_toList] at long
    exact long listed
  constructor
  · rintro (leads | ⟨more, short⟩ | known | named)
    · exact .inl leads
    · exact absurd short.symm (otherScheme "xsd" (by simp) more)
    · rcases List.mem_append.mp known with inSchema | others
      · obtain ⟨name, _, rfl⟩ := List.mem_map.mp inSchema
        rw [String.toList_append]
        exact .inl (List.prefix_append _ _)
      · exact .inr others
    · rw [exists_literalType_iff fun name => ∃ space ∈ ["", "rdf:", "rdfs:"], text = space ++ name]
        at named
      obtain ⟨name, listed, space, short, rfl⟩ := named
      simp only [List.mem_cons, List.not_mem_nil, or_false] at short
      rcases short with rfl | rfl | rfl
      · have colon : ':' ∈ name.toList := by
          rw [String.empty_append] at parts
          simp [parts]
        exact Bool.noConfusion ((plain_of_mem_literalTypeNames name listed).2 ':' colon)
      · exact absurd (String.toList_append ..) (otherScheme "rdf" (by simp) _)
      · exact absurd (String.toList_append ..) (otherScheme "rdfs" (by simp) _)
  · rintro (leads | other)
    · exact .inl leads
    · exact .inr (.inr (.inl (List.mem_append_right _ other)))

/-- An identifier is taken for a datatype if its text names one or has `XMLSchema#` in it. -/
theorem literal_types_by_text (iri : Iri) :
    (iri.isLiteralType = true ↔
      NamesDatatype iri.text ∨ "XMLSchema#".toList <:+: iri.text.toList) ∧
    ∀ scheme rest : List Char, iri.text.toList = scheme ++ ':' :: rest → ':' ∉ scheme →
      String.ofList scheme ∉ ["xsd", "rdf", "rdfs"] →
      (iri.isLiteralType = true ↔ "XMLSchema#".toList <:+: iri.text.toList ∨
        iri.text ∈ ["http://www.w3.org/1999/02/22-rdf-syntax-ns#langString",
          "http://www.w3.org/2000/01/rdf-schema#Literal"]) := by
  refine ⟨iri.isLiteralType_iff, fun scheme rest parts absent long => ?_⟩
  rw [isLiteralType_iff, namesDatatype_iff_of_scheme parts absent long, or_infix_iff]

theorem literal_types_by_text_of_own_class :
    let iri : Iri := ⟨"http://ex.org/onto#Date", by decide⟩
    iri.text.toList = "http".toList ++ ':' :: "//ex.org/onto#Date".toList ∧
    ':' ∉ "http".toList ∧ String.ofList "http".toList ∉ ["xsd", "rdf", "rdfs"] ∧
    iri.isLiteralType = false := by
  intro iri
  have parts : iri.text.toList = "http".toList ++ ':' :: "//ex.org/onto#Date".toList := by decide
  have absent : ':' ∉ "http".toList := by decide
  have long : String.ofList "http".toList ∉ ["xsd", "rdf", "rdfs"] := by decide
  refine ⟨parts, absent, long, Bool.eq_false_iff.mpr fun literal => ?_⟩
  rcases ((literal_types_by_text iri).2 _ _ parts absent long).mp literal with within | other
  · exact absurd (Text.occursIn_iff_isInfix.mpr within) (by decide)
  · exact absurd other (by decide)

/-- A class of another namespace that ends like the schema namespace is taken for a datatype. -/
theorem class_taken_for_datatype :
    let iri : Iri := ⟨"http://ex.org/XMLSchema#Customer", by decide⟩
    iri.isLiteralType = true ∧ ¬ NamesDatatype iri.text := by
  intro iri
  have parts : iri.text.toList = "http".toList ++ ':' :: "//ex.org/XMLSchema#Customer".toList := by
    decide
  refine ⟨isLiteralType_iff iri |>.mpr (.inr (Text.occursIn_iff_isInfix.mp (by decide))), ?_⟩
  rw [namesDatatype_iff_of_scheme parts (by decide) (by decide)]
  decide

end CatalogBrowser.Iri
