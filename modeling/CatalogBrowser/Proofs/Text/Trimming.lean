import CatalogBrowser.Text.Blank
import Mathlib.Data.List.TakeWhile

/-!
What trimming leaves of a text: all but the blanks around it.
-/

namespace CatalogBrowser.Text

theorem trimChars_eq_self {chars : List Char} (visible : ∀ c ∈ chars, isBlank c = false) :
    trimChars chars = chars := by
  have kept : ∀ {chars : List Char}, (∀ c ∈ chars, isBlank c = false) →
      chars.dropWhile isBlank = chars := by
    intro chars visible
    cases chars with
    | nil => rfl
    | cons c rest => exact List.dropWhile_cons_of_neg (by simp [visible c])
  rw [trimChars, kept visible, dropEnd, kept fun c member => visible c (List.mem_reverse.mp member),
    List.reverse_reverse]

theorem trimChars_parts (chars : List Char) :
    ∃ before after, chars = before ++ trimChars chars ++ after ∧
      (∀ c ∈ before, isBlank c = true) ∧ ∀ c ∈ after, isBlank c = true := by
  refine ⟨chars.takeWhile isBlank,
    ((chars.dropWhile isBlank).reverse.takeWhile isBlank).reverse, ?_, ?_, ?_⟩
  · rw [List.append_assoc, trimChars, dropEnd_append_takeWhile, List.takeWhile_append_dropWhile]
  · exact fun c member => List.mem_takeWhile_imp member
  · exact fun c member => List.mem_takeWhile_imp (List.mem_reverse.mp member)

theorem trimChars_eq_nil_iff {text : String} :
    trimChars text.toList = [] ↔ isBlankText text = true := by
  obtain ⟨before, after, parts, first, last⟩ := trimChars_parts text.toList
  rw [isBlankText, List.all_eq_true]
  constructor
  · intro empty c member
    rw [parts, empty, List.append_nil] at member
    exact (List.mem_append.mp member).elim (first c) (last c)
  · intro blank
    have dropped : text.toList.dropWhile isBlank = [] := List.dropWhile_eq_nil_iff.mpr blank
    rw [trimChars, dropped]
    rfl

end CatalogBrowser.Text
