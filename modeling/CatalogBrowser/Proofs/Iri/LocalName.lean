import CatalogBrowser.Concept.Basic
import Mathlib.Data.List.TakeWhile

/-!
Local names.  The local name of an identifier is the last run of characters in it that are no
separators, or all of it where it has separators only, so that there is always something to see.
-/

namespace CatalogBrowser

namespace Iri

structure ClosingRun (chars run : List Char) : Prop where
  plain : ∀ c ∈ run, isSeparator c = false
  closes : ∃ before after, chars = before ++ run ++ after ∧ ∀ c ∈ after, isSeparator c = true

def lastRun (chars : List Char) : List Char :=
  ((chars.reverse.dropWhile isSeparator).takeWhile fun c => !isSeparator c).reverse

theorem localChars_eq (chars : List Char) :
    localChars chars = if (lastRun chars).isEmpty then chars else lastRun chars := rfl

theorem closingRun_lastRun (chars : List Char) : ClosingRun chars (lastRun chars) where
  plain c member := by simpa using List.mem_takeWhile_imp (List.mem_reverse.mp member)
  closes := by
    let kept := chars.reverse.dropWhile isSeparator
    refine ⟨(kept.dropWhile fun c => !isSeparator c).reverse,
      (chars.reverse.takeWhile isSeparator).reverse, ?_, fun c member => ?_⟩
    · rw [lastRun, ← List.reverse_append, List.takeWhile_append_dropWhile, ← List.reverse_append,
        List.takeWhile_append_dropWhile, List.reverse_reverse]
    · exact List.mem_takeWhile_imp (List.mem_reverse.mp member)

theorem lastRun_append {before run after : List Char} (nonempty : run ≠ [])
    (plain : ∀ c ∈ run, isSeparator c = false) (closes : ∀ c ∈ after, isSeparator c = true) :
    lastRun (before ++ run ++ after) =
      (before.reverse.takeWhile fun c => !isSeparator c).reverse ++ run := by
  -- read from its end, the text has `after`, which is dropped, and then `run`, where that stops
  have passed : ∀ c ∈ run.reverse, (!isSeparator c) = true := by simpa using plain
  have skipped : ∀ c ∈ after.reverse, isSeparator c = true := by simpa using closes
  obtain ⟨last, others, ends⟩ := List.exists_cons_of_ne_nil (List.reverse_ne_nil_iff.mpr nonempty)
  have kept : (run.reverse ++ before.reverse).dropWhile isSeparator =
      run.reverse ++ before.reverse := by
    have notSeparator := passed last (ends ▸ List.mem_cons_self)
    rw [ends, List.cons_append, List.dropWhile_cons_of_neg (by simpa using notSeparator)]
  rw [lastRun, List.reverse_append, List.reverse_append, List.dropWhile_append_of_pos skipped, kept,
    List.takeWhile_append_of_pos passed, List.reverse_append, List.reverse_reverse]

theorem ClosingRun.suffix {chars run : List Char} (closing : ClosingRun chars run) :
    run <:+ lastRun chars := by
  obtain ⟨plain, before, after, rfl, closes⟩ := closing
  by_cases empty : run = []
  · rw [empty]
    exact List.nil_suffix
  · rw [lastRun_append empty plain closes]
    exact List.suffix_append _ _

theorem lastRun_eq_nil_iff {chars : List Char} :
    lastRun chars = [] ↔ ∀ c ∈ chars, isSeparator c = true := by
  rw [lastRun, List.reverse_eq_nil_iff]
  cases kept : chars.reverse.dropWhile isSeparator with
  | nil =>
      have separators := List.dropWhile_eq_nil_iff.mp kept
      simpa using separators
  | cons last others =>
      have plain : isSeparator last = false := by
        simpa [kept] using List.head?_dropWhile_not isSeparator chars.reverse
      have member : last ∈ chars := by
        refine List.mem_reverse.mp ((List.dropWhile_sublist isSeparator).subset ?_)
        rw [kept]
        exact List.mem_cons_self
      rw [List.takeWhile_cons_of_pos (by simp [plain])]
      refine iff_of_false (List.cons_ne_nil _ _) fun separators => ?_
      exact Bool.noConfusion (plain.symm.trans (separators last member))

theorem localChars_of_separators {chars : List Char}
    (separators : ∀ c ∈ chars, isSeparator c = true) : localChars chars = chars := by
  rw [localChars_eq, lastRun_eq_nil_iff.mpr separators]
  rfl

theorem localChars_of_mixed {chars : List Char} (mixed : ¬∀ c ∈ chars, isSeparator c = true) :
    localChars chars = lastRun chars := by
  rw [localChars_eq, if_neg]
  rwa [List.isEmpty_iff, lastRun_eq_nil_iff]

theorem isInfix_localChars (chars : List Char) : localChars chars <:+: chars := by
  rw [localChars_eq]
  split
  · exact List.infix_rfl
  · obtain ⟨before, after, parts, _⟩ := (closingRun_lastRun chars).closes
    exact ⟨before, after, parts.symm⟩

theorem localChars_ne_nil {chars : List Char} (nonempty : chars ≠ []) : localChars chars ≠ [] := by
  rw [localChars_eq]
  split
  · exact nonempty
  · next visible => simpa using visible

theorem toList_localName (iri : Iri) : iri.localName.toList = localChars iri.text.toList :=
  String.toList_ofList

theorem localName_ne_nil (iri : Iri) : iri.localName.toList ≠ [] := by
  rw [toList_localName]
  refine localChars_ne_nil ?_
  simpa using (Bool.and_eq_true_iff.mp iri.usable).1

theorem visible_localName (iri : Iri) : ∀ c ∈ iri.localName.toList, Text.isBlank c = false := by
  rw [toList_localName]
  exact fun c member => visible_of_usable iri.usable c ((isInfix_localChars _).subset member)

theorem isBlankText_localName (iri : Iri) : Text.isBlankText iri.localName = false := by
  obtain ⟨c, member⟩ := List.exists_mem_of_ne_nil _ iri.localName_ne_nil
  rw [Text.isBlankText, List.all_eq_false]
  exact ⟨c, member, by simp [iri.visible_localName c member]⟩

end Iri

theorem Concept.isBlankText_shownLabel (concept : Concept) :
    Text.isBlankText concept.shownLabel = false := by
  unfold shownLabel
  split
  · split
    · exact concept.iri.isBlankText_localName
    · next visible => simpa using visible
  · exact concept.iri.isBlankText_localName

end CatalogBrowser
