import CatalogBrowser.Text.Blank
import CatalogBrowser.Text.LowerCase

/-!
Lower-casing a part of a text.  What a capital sigma becomes depends on the letters around it, so in
its place a part becomes what it becomes alone exactly if the same sigmas end a word there.  All
do if there is none, or if no letter stands next to the part.
-/

namespace CatalogBrowser.Text

/-- Lower-cases a part of a text, with what stands before it, the nearest first, and after it. -/
def lowerBetween (before after : List Char) : List Char → List Char
  | [] => []
  | c :: rest =>
    (if c = 'Σ' then [if endsWord before (rest ++ after) then 'ς' else 'σ'] else lowerChar c) ++
      lowerBetween (c :: before) after rest

/-- The sigmas of a part end a word between two texts exactly if they do in the part alone. -/
def KeepsSigmas (before part after : List Char) : Prop :=
  ∀ front back, part = front ++ 'Σ' :: back →
    endsWord (front.reverse ++ before.reverse) (back ++ after) = endsWord front.reverse back

def KeptPart (part whole : List Char) : Prop :=
  ∃ before after, whole = before ++ part ++ after ∧ KeepsSigmas before part after

theorem lowerAfter_append (before part after : List Char) :
    lowerAfter before (part ++ after) =
      lowerBetween before after part ++ lowerAfter (part.reverse ++ before) after := by
  induction part generalizing before with
  | nil => rfl
  | cons c rest ih =>
      rw [List.cons_append, lowerAfter, ih, lowerBetween, List.append_assoc, List.reverse_cons,
        List.append_assoc]
      rfl

theorem lowerAfter_eq_lowerBetween (before part : List Char) :
    lowerAfter before part = lowerBetween before [] part := by
  have whole := lowerAfter_append before part []
  rwa [List.append_nil, lowerAfter, List.append_nil] at whole

theorem lowerBetween_sigma (before after rest : List Char) :
    lowerBetween before after ('Σ' :: rest) =
      (if endsWord before (rest ++ after) then 'ς' else 'σ') ::
        lowerBetween ('Σ' :: before) after rest := rfl

theorem lowerBetween_cons {c : Char} (other : c ≠ 'Σ') (before after rest : List Char) :
    lowerBetween before after (c :: rest) =
      lowerChar c ++ lowerBetween (c :: before) after rest := by
  rw [lowerBetween, if_neg other]

theorem forall_split_cons {c mark : Char} {rest : List Char}
    {holds : List Char → List Char → Prop} :
    (∀ front back, c :: rest = front ++ mark :: back → holds front back) ↔
      (c = mark → holds [] rest) ∧
        ∀ front back, rest = front ++ mark :: back → holds (c :: front) back := by
  constructor
  · intro all
    refine ⟨fun same => all [] rest (congrArg (· :: rest) same), fun front back split => ?_⟩
    exact all (c :: front) back (congrArg (c :: ·) split)
  · rintro ⟨here, later⟩ front back split
    cases front with
    | nil =>
        obtain ⟨same, rfl⟩ := List.cons.inj split
        exact here same
    | cons first front =>
        obtain ⟨rfl, tail⟩ := List.cons.inj split
        exact later front back tail

theorem lowerBetween_eq_iff {read before after part : List Char} :
    lowerBetween (read ++ before) after part = lowerBetween read [] part ↔
      ∀ front back, part = front ++ 'Σ' :: back →
        endsWord (front.reverse ++ (read ++ before)) (back ++ after) =
          endsWord (front.reverse ++ read) back := by
  -- `read` is what of the part went before, the nearest first; each step adds a character to it
  induction part generalizing read with
  | nil => simp [lowerBetween]
  | cons c rest ih =>
      have later := @ih (c :: read)
      rw [List.cons_append] at later
      rw [forall_split_cons]
      simp only [List.reverse_cons, List.append_assoc, List.singleton_append, List.reverse_nil,
        List.nil_append, ← later]
      by_cases sigma : c = 'Σ'
      · subst sigma
        rw [lowerBetween_sigma, lowerBetween_sigma, List.cons.injEq, List.append_nil]
        refine and_congr_left fun _ => ?_
        cases endsWord (read ++ before) (rest ++ after) <;> cases endsWord read rest <;> decide
      · rw [lowerBetween_cons sigma, lowerBetween_cons sigma, List.append_cancel_left_eq]
        simp [sigma]

theorem lowerBetween_eq_lowerAfter_iff {before part after : List Char} :
    lowerBetween before.reverse after part = lowerAfter [] part ↔
      KeepsSigmas before part after := by
  rw [lowerAfter_eq_lowerBetween, KeepsSigmas]
  simpa using @lowerBetween_eq_iff [] before.reverse after part

theorem lowerAfter_parts (before part after : List Char) :
    ∃ back, lowerAfter [] (before ++ part ++ after) =
      lowerBetween [] (part ++ after) before ++ lowerBetween before.reverse after part ++ back := by
  refine ⟨lowerAfter (part.reverse ++ before.reverse) after, ?_⟩
  rw [List.append_assoc, lowerAfter_append, lowerAfter_append, List.append_nil, List.append_assoc]

theorem KeptPart.occurs {part whole : List Char} (kept : KeptPart part whole) :
    lowerAfter [] part <:+: lowerAfter [] whole := by
  obtain ⟨before, after, rfl, keeps⟩ := kept
  obtain ⟨back, parts⟩ := lowerAfter_parts before part after
  rw [lowerBetween_eq_lowerAfter_iff.mpr keeps] at parts
  exact ⟨_, back, parts.symm⟩

/-! Parts that keep their sigmas -/

theorem keepsSigmas_of_notMem {part : List Char} (none : 'Σ' ∉ part) (before after : List Char) :
    KeepsSigmas before part after := by
  rintro front back rfl
  exact absurd (by simp) none

theorem meetsCased_append {chars rest : List Char} (apart : meetsCased rest = false) :
    meetsCased (chars ++ rest) = meetsCased chars := by
  unfold meetsCased at apart ⊢
  rw [List.dropWhile_append]
  cases met : chars.dropWhile fun c => inRanges caseIgnorableRanges c.toNat with
  | nil => simpa using apart
  | cons c others => simp

theorem keepsSigmas_of_apart {before after : List Char} (left : meetsCased before.reverse = false)
    (right : meetsCased after = false) (part : List Char) : KeepsSigmas before part after := by
  intro front back _
  rw [endsWord, endsWord, meetsCased_append left, meetsCased_append right]

/-! Blanks -/

def blankCodes : List Nat :=
  List.range' 9 5 ++ [0x20, 0x85, 0xA0, 0x1680] ++ List.range' 0x2000 11 ++
    [0x2028, 0x2029, 0x202F, 0x205F, 0x3000]

theorem mem_blankCodes {c : Char} (blank : isBlank c = true) : c.toNat ∈ blankCodes := by
  simp only [isBlank, Bool.or_eq_true, Bool.and_eq_true, decide_eq_true_eq, beq_iff_eq,
    ← Nat.lt_succ_iff] at blank
  simp only [blankCodes, List.mem_append, List.mem_range'_1, List.mem_cons, List.not_mem_nil]
  grind

theorem meetsCased_of_blanks {chars : List Char} (blanks : ∀ c ∈ chars, isBlank c = true) :
    meetsCased chars = false := by
  have separates : ∀ code ∈ blankCodes,
      inRanges caseIgnorableRanges code = false ∧ inRanges casedRanges code = false := by
    decide +kernel
  cases chars with
  | nil => rfl
  | cons c rest =>
      obtain ⟨stops, uncased⟩ := separates _ (mem_blankCodes (blanks c List.mem_cons_self))
      rw [meetsCased, List.dropWhile_cons_of_neg (by simp [stops])]
      exact uncased

end CatalogBrowser.Text
