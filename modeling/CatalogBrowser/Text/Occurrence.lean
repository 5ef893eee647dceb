/-!
Whether one text occurs inside another.
-/

namespace CatalogBrowser.Text

def occursIn (part : List Char) : List Char → Bool
  | [] => part.isEmpty
  | c :: rest => part.isPrefixOf (c :: rest) || occursIn part rest

theorem occursIn_iff {part chars : List Char} :
    occursIn part chars = true ↔ ∃ before after, chars = before ++ part ++ after := by
  induction chars with
  | nil => cases part <;> simp [occursIn]
  | cons c rest ih =>
    simp only [occursIn, Bool.or_eq_true, ih, List.isPrefixOf_iff_prefix]
    constructor
    · rintro (⟨after, equal⟩ | ⟨before, after, equal⟩)
      · exact ⟨[], after, equal.symm⟩
      · exact ⟨c :: before, after, by simp [equal]⟩
    · rintro ⟨before, after, equal⟩
      cases before with
      | nil => exact .inl ⟨after, equal.symm⟩
      | cons first before =>
        simp only [List.cons_append, List.cons.injEq] at equal
        exact .inr ⟨before, after, equal.2⟩

theorem occursIn_iff_isInfix {part chars : List Char} :
    occursIn part chars = true ↔ part <:+: chars := by
  rw [occursIn_iff]
  exact exists_congr fun before => exists_congr fun after => eq_comm

end CatalogBrowser.Text
