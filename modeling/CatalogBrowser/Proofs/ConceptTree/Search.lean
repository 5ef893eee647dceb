import CatalogBrowser.ConceptTree.Search
import CatalogBrowser.Proofs.ConceptTree.Construction
import CatalogBrowser.Proofs.Iri.LocalName
import CatalogBrowser.Proofs.Text.LowerCase
import CatalogBrowser.Proofs.Text.Trimming

/-!
What a search finds.  Every concept is found by its label, by its identifier and by each part of
them that keeps its sigmas, and what a query finds is found by each such part of the query.
-/

namespace CatalogBrowser

namespace Text

theorem lowerChar_ne_nil (c : Char) : lowerChar c ≠ [] := by
  unfold lowerChar
  split
  · simp
  · split <;> simp

theorem lowerAfter_eq_nil_iff {before chars : List Char} :
    lowerAfter before chars = [] ↔ chars = [] := by
  cases chars with
  | nil => simp [lowerAfter]
  | cons c rest =>
      rw [lowerAfter]
      split
      · simp
      · simp [lowerChar_ne_nil]

theorem toList_lowerCase (text : String) : (lowerCase text).toList = lowerAfter [] text.toList :=
  String.toList_ofList

theorem isEmpty_lowerCase_trim (query : String) :
    (lowerCase (trim query)).isEmpty = isBlankText query := by
  rw [Bool.eq_iff_iff, String.isEmpty_iff, ← String.toList_eq_nil_iff, toList_lowerCase,
    lowerAfter_eq_nil_iff, trim, String.toList_ofList, trimChars_eq_nil_iff]

end Text

namespace ConceptTree

section

variable {tree : ConceptTree} {query : String} {concept : Concept}

theorem mem_search : concept ∈ tree.search query ↔
    concept ∈ tree.concepts ∧ Text.isBlankText query = false ∧
      ∃ text ∈ [concept.shownLabel, concept.iri.text],
        Text.lowerAfter [] (Text.trimChars query.toList) <:+: Text.lowerAfter [] text.toList := by
  have mentioned : ∀ text, mentions text (Text.lowerCase (Text.trim query)) = true ↔
      Text.lowerAfter [] (Text.trimChars query.toList) <:+: Text.lowerAfter [] text.toList := by
    intro text
    rw [mentions, Text.occursIn_iff_isInfix, Text.toList_lowerCase, Text.toList_lowerCase,
      Text.trim, String.toList_ofList]
  simp only [search, Text.isEmpty_lowerCase_trim]
  cases Text.isBlankText query with
  | true => simp
  | false => simp [mentioned]

theorem search_sublist (tree : ConceptTree) (query : String) :
    (tree.search query).Sublist tree.concepts := by
  simp only [search]
  split
  · exact List.nil_sublist _
  · exact List.filter_sublist

theorem mem_search_of_kept (loaded : concept ∈ tree.concepts)
    (visible : Text.isBlankText query = false) {text : String}
    (shown : text ∈ [concept.shownLabel, concept.iri.text])
    (kept : Text.KeptPart (Text.trimChars query.toList) text.toList) :
    concept ∈ tree.search query :=
  mem_search.mpr ⟨loaded, visible, text, shown, kept.occurs⟩

theorem mem_search_of_text (loaded : concept ∈ tree.concepts) {text : String}
    (shown : text ∈ [concept.shownLabel, concept.iri.text]) :
    concept ∈ tree.search text := by
  have visible : Text.isBlankText text = false := by
    simp only [List.mem_cons, List.not_mem_nil, or_false] at shown
    rcases shown with rfl | rfl
    · exact concept.isBlankText_shownLabel
    · exact concept.iri.isBlankText_text
  obtain ⟨before, after, parts, left, right⟩ := Text.trimChars_parts text.toList
  refine mem_search_of_kept loaded visible shown
    ⟨before, after, parts, Text.keepsSigmas_of_apart ?_ ?_ _⟩
  · exact Text.meetsCased_of_blanks fun c member => left c (List.mem_reverse.mp member)
  · exact Text.meetsCased_of_blanks right

theorem search_subset {part : String} (visible : Text.isBlankText part = false)
    (kept : Text.KeptPart (Text.trimChars part.toList) (Text.trimChars query.toList)) :
    tree.search query ⊆ tree.search part := by
  intro concept found
  obtain ⟨loaded, _, text, shown, occurs⟩ := mem_search.mp found
  exact mem_search.mpr ⟨loaded, visible, text, shown, kept.occurs.trans occurs⟩

end

/-- A search keeps the order of the input and finds a concept by every part of its texts that keeps
its sigmas. -/
theorem search_finds_parts (input : List Concept) (options : DisplayOptions) :
    let tree := ofConcepts input options
    tree.concepts.Sublist input ∧
    (∀ query, (tree.search query).Sublist tree.concepts) ∧
    (∀ concept ∈ tree.concepts, ∀ text ∈ [concept.shownLabel, concept.iri.text],
      concept ∈ tree.search text ∧
      ∀ query, Text.isBlankText query = false →
        Text.KeptPart (Text.trimChars query.toList) text.toList → concept ∈ tree.search query) ∧
    (∀ query part, Text.isBlankText part = false →
      Text.KeptPart (Text.trimChars part.toList) (Text.trimChars query.toList) →
      tree.search query ⊆ tree.search part) ∧
    (∀ before part after, 'Σ' ∉ part ∨
        Text.meetsCased before.reverse = false ∧ Text.meetsCased after = false →
      Text.KeptPart part (before ++ part ++ after)) := by
  intro tree
  refine ⟨loadedOf_sublist options input, tree.search_sublist, ?_, ?_, ?_⟩
  · intro concept loaded text shown
    exact ⟨mem_search_of_text loaded shown,
      fun query visible kept => mem_search_of_kept loaded visible shown kept⟩
  · exact fun query part visible kept => search_subset visible kept
  · intro before part after alike
    refine ⟨before, after, rfl, ?_⟩
    rcases alike with none | ⟨left, right⟩
    · exact Text.keepsSigmas_of_notMem none before after
    · exact Text.keepsSigmas_of_apart left right part

theorem search_finds_word_of_label :
    let x : Iri := ⟨"x", by decide⟩
    let street : Concept :=
      { iri := x, conceptType := .ontologyClass, label := some "Η ΟΔΟΣ ΜΑΣ" }
    let tree := ofConcepts [street] {}
    street ∈ tree.search " ΟΔΟΣ " ∧ tree.search "ΟΔΟΣ ΜΑΣ" ⊆ tree.search "ΟΔΟΣ" := by
  intro x street tree
  have trimmed : Text.trimChars " ΟΔΟΣ ".toList = "ΟΔΟΣ".toList := by decide +kernel
  have word : Text.trimChars "ΟΔΟΣ".toList = "ΟΔΟΣ".toList := by decide +kernel
  have words : Text.trimChars "ΟΔΟΣ ΜΑΣ".toList = [] ++ "ΟΔΟΣ".toList ++ " ΜΑΣ".toList := by
    decide +kernel
  have label : "Η ΟΔΟΣ ΜΑΣ".toList = "Η ".toList ++ "ΟΔΟΣ".toList ++ " ΜΑΣ".toList := by
    decide +kernel
  obtain ⟨_, _, texts, parts, kept⟩ := search_finds_parts [street] {}
  constructor
  · refine (texts street (by decide) "Η ΟΔΟΣ ΜΑΣ" (by decide)).2 " ΟΔΟΣ " (by decide) ?_
    rw [trimmed, label]
    exact kept _ _ _ (.inr (by decide +kernel))
  · refine parts "ΟΔΟΣ ΜΑΣ" "ΟΔΟΣ" (by decide) ?_
    rw [word, words]
    exact kept _ _ _ (.inr (by decide +kernel))

/-- A word that begins another one may not find it: its sigma ends the word only if typed alone. -/
theorem search_misses_part_before_letter :
    let x : Iri := ⟨"x", by decide⟩
    let offer : Concept := { iri := x, conceptType := .ontologyClass, label := some "ΠΡΟΣΦΟΡΑ" }
    let tree := ofConcepts [offer] {}
    offer ∈ tree.concepts ∧ offer.shownLabel = "ΠΡΟΣ" ++ "ΦΟΡΑ" ∧
      tree.search "ΠΡΟΣΦΟΡΑ" = [offer] ∧ tree.search "ΠΡΟΣ" = [] := by
  decide +kernel

end ConceptTree

end CatalogBrowser
