import CatalogBrowser.Json.Printer
import CatalogBrowser.Json.Reader
import CatalogBrowser.Proofs.Json.Members
import Mathlib.Data.List.Nodup
import Mathlib.Tactic.SplitIfs

/-!
Printed values are read back.

The reader is followed along the compact text of a value that holds no number.  When in addition no
object of the value has a name twice and the value is not nested too deep, the text is read as that
value however repeated names are resolved.
-/

namespace CatalogBrowser.Json

inductive NumberFree : Json → Prop
  | null : NumberFree .null
  | bool (value : Bool) : NumberFree (.bool value)
  | string (text : String) : NumberFree (.string text)
  | array {items : List Json} : (∀ item ∈ items, NumberFree item) → NumberFree (.array items)
  | object {members : List (String × Json)} :
      (∀ member ∈ members, NumberFree member.2) → NumberFree (.object members)

theorem skipSpaces_cons {c : Char} (visible : isSpace c = false) (rest : List Char) :
    skipSpaces (c :: rest) = c :: rest :=
  List.dropWhile_cons_of_neg (by simp [visible])

/-! Strings -/

theorem codeUnit?_control : ∀ code < 0x20,
    codeUnit? '0' '0' (Nat.digitChar (code / 16)) (Nat.digitChar (code % 16)) = some code := by
  decide

theorem readString_control {c : Char} (control : c.toNat < 0x20) (read rest : List Char) :
    readString read ('\\' :: 'u' :: '0' :: '0' :: Nat.digitChar (c.toNat / 16) ::
      Nat.digitChar (c.toNat % 16) :: rest) = readString (c :: read) rest := by
  have notHigh : isHighSurrogate c.toNat = false := by
    simp only [isHighSurrogate, Bool.and_eq_false_iff, decide_eq_false_iff_not]
    omega
  have notLow : isLowSurrogate c.toNat = false := by
    simp only [isLowSurrogate, Bool.and_eq_false_iff, decide_eq_false_iff_not]
    omega
  rw [readString, codeUnit?_control _ control]
  simp only [notHigh, notLow, Bool.false_eq_true, if_false, Char.ofNat_toNat]

theorem readString_plain {c : Char} (notQuote : c ≠ '"') (notEscape : c ≠ '\\')
    (notControl : ¬ c.toNat < 0x20) (read rest : List Char) :
    readString read (c :: rest) = readString (c :: read) rest := by
  rw [readString]
  · simp [notEscape, notControl]
  · exact notQuote
  · intro a b c d rest same
    exact absurd same notEscape
  · intro c rest same
    exact absurd same notEscape

theorem readString_escapeChar (read : List Char) (c : Char) (rest : List Char) :
    readString read (escapeChar c ++ rest) = readString (c :: read) rest := by
  unfold escapeChar
  split_ifs with quote escape newline carriage tab back form control
  · subst quote; rfl
  · subst escape; rfl
  · subst newline; rfl
  · subst carriage; rfl
  · subst tab; rfl
  · subst back; rfl
  · subst form; rfl
  · exact readString_control control read rest
  · exact readString_plain quote escape control read rest

theorem readString_escaped (read chars rest : List Char) :
    readString read (chars.flatMap escapeChar ++ '"' :: rest) =
      some (String.ofList (read.reverse ++ chars), rest) := by
  induction chars generalizing read with
  | nil => simp [readString]
  | cons c chars ih =>
      rw [List.flatMap_cons, List.append_assoc, readString_escapeChar, ih, List.reverse_cons,
        List.append_assoc, List.singleton_append]

theorem toList_quote (text : String) :
    (quote text).toList = '"' :: (text.toList.flatMap escapeChar ++ ['"']) := by
  simp [quote]

theorem readString_quoted (text : String) (rest : List Char) :
    readString [] (text.toList.flatMap escapeChar ++ ['"'] ++ rest) = some (text, rest) := by
  rw [List.append_assoc, List.singleton_append, readString_escaped, List.reverse_nil,
    List.nil_append, String.ofList_toList]

/-! Values -/

/-- The text of a value is read as that value, whatever follows it, with two steps for each
character. -/
def ReadsBack (json : Json) : Prop :=
  ∀ fuel rest, 2 * json.compact.toList.length ≤ fuel →
    readValue fuel (json.compact.toList ++ rest) = some (json, rest)

theorem toList_compact_array (items : List Json) : (Json.array items).compact.toList =
    '[' :: ((",".intercalate (compactItems items)).toList ++ [']']) := by
  rw [compact, String.toList_append, String.toList_append]
  rfl

theorem toList_compact_object (members : List (String × Json)) :
    (Json.object members).compact.toList =
      '\x7b' :: ((",".intercalate (compactMembers members)).toList ++ ['\x7d']) := by
  rw [compact, String.toList_append, String.toList_append]
  rfl

theorem compact_head {json : Json} (plain : json.NumberFree) :
    ∃ c rest, json.compact.toList = c :: rest ∧ isSpace c = false ∧ c ≠ ']' := by
  cases plain with
  | null => exact ⟨'n', _, rfl, by decide⟩
  | bool value => cases value <;> exact ⟨_, _, rfl, by decide⟩
  | string text => exact ⟨'"', _, toList_quote text, by decide⟩
  | array items => exact ⟨'[', _, toList_compact_array _, by decide⟩
  | object members => exact ⟨'\x7b', _, toList_compact_object _, by decide⟩

theorem readItems_last {fuel : Nat} {item : Json} {chars rest : List Char}
    (reads : readValue fuel chars = some (item, ']' :: rest)) (read : List Json) :
    readItems (fuel + 1) read chars = some (read.reverse ++ [item], rest) := by
  rw [readItems, reads]
  simp only [skipSpaces_cons (show isSpace ']' = false from rfl), List.reverse_cons]

theorem readItems_next {fuel : Nat} {item : Json} {chars rest : List Char}
    (reads : readValue fuel chars = some (item, ',' :: rest)) (read : List Json) :
    readItems (fuel + 1) read chars = readItems fuel (item :: read) rest := by
  rw [readItems, reads]
  simp only [skipSpaces_cons (show isSpace ',' = false from rfl)]

theorem compactMembers_cons (member : String × Json) (others : List (String × Json)) :
    compactMembers (member :: others) =
      (quote member.1 ++ ":" ++ compact member.2) :: compactMembers others := rfl

theorem toList_intercalate_cons (text next : String) (others : List String) :
    (",".intercalate (text :: next :: others)).toList =
      text.toList ++ ',' :: (",".intercalate (next :: others)).toList := by
  rw [String.intercalate_cons_cons, String.toList_append, String.toList_append, List.append_assoc]
  rfl

theorem readItems_compact {items : List Json} (nonempty : items ≠ [])
    (reads : ∀ item ∈ items, ReadsBack item) {fuel : Nat} (read : List Json) (rest : List Char)
    (enough : 2 * (",".intercalate (compactItems items)).toList.length < fuel) :
    readItems fuel read ((",".intercalate (compactItems items)).toList ++ ']' :: rest) =
      some (read.reverse ++ items, rest) := by
  induction items generalizing fuel read with
  | nil => exact absurd rfl nonempty
  | cons item others ih =>
      obtain ⟨fuel, rfl⟩ := Nat.exists_eq_add_of_lt (Nat.zero_lt_of_lt enough)
      rw [Nat.zero_add] at enough ⊢
      have readsItem := reads item List.mem_cons_self
      cases others with
      | nil =>
          rw [compactItems, compactItems, String.intercalate_singleton] at enough ⊢
          exact readItems_last (readsItem fuel _ (by omega)) read
      | cons next others =>
          rw [compactItems, compactItems, toList_intercalate_cons, ← compactItems] at enough ⊢
          rw [List.length_append, List.length_cons] at enough
          rw [List.append_assoc, List.cons_append,
            readItems_next (readsItem fuel _ (by omega)) read,
            ih (List.cons_ne_nil _ _)
              (fun other member => reads other (List.mem_cons_of_mem _ member)) _ (by omega),
            List.reverse_cons, List.append_assoc, List.singleton_append]

theorem readMembers_last {fuel : Nat} {value : Json} {chars rest : List Char}
    (reads : readValue fuel chars = some (value, '\x7d' :: rest)) (name : String)
    (read : List (String × Json)) :
    readMembers (fuel + 1) read ((quote name ++ ":").toList ++ chars) =
      some (read.reverse ++ [(name, value)], rest) := by
  rw [String.toList_append, toList_quote, List.append_assoc, List.cons_append, readMembers,
    skipSpaces_cons rfl]
  simp only [readString_quoted]
  rw [show ":".toList ++ chars = ':' :: chars from rfl, skipSpaces_cons rfl]
  simp only [reads, skipSpaces_cons (show isSpace '\x7d' = false from rfl), List.reverse_cons]

theorem readMembers_next {fuel : Nat} {value : Json} {chars rest : List Char}
    (reads : readValue fuel chars = some (value, ',' :: rest)) (name : String)
    (read : List (String × Json)) :
    readMembers (fuel + 1) read ((quote name ++ ":").toList ++ chars) =
      readMembers fuel ((name, value) :: read) rest := by
  rw [String.toList_append, toList_quote, List.append_assoc, List.cons_append, readMembers,
    skipSpaces_cons rfl]
  simp only [readString_quoted]
  rw [show ":".toList ++ chars = ':' :: chars from rfl, skipSpaces_cons rfl]
  simp only [reads, skipSpaces_cons (show isSpace ',' = false from rfl)]

theorem readMembers_compact {members : List (String × Json)} (nonempty : members ≠ [])
    (reads : ∀ member ∈ members, ReadsBack member.2) {fuel : Nat} (read : List (String × Json))
    (rest : List Char)
    (enough : 2 * (",".intercalate (compactMembers members)).toList.length < fuel) :
    readMembers fuel read
        ((",".intercalate (compactMembers members)).toList ++ '\x7d' :: rest) =
      some (read.reverse ++ members, rest) := by
  induction members generalizing fuel read with
  | nil => exact absurd rfl nonempty
  | cons member others ih =>
      obtain ⟨fuel, rfl⟩ := Nat.exists_eq_add_of_lt (Nat.zero_lt_of_lt enough)
      rw [Nat.zero_add] at enough ⊢
      obtain ⟨name, value⟩ := member
      have readsValue : value.ReadsBack := reads (name, value) List.mem_cons_self
      cases others with
      | nil =>
          rw [compactMembers, compactMembers, String.intercalate_singleton,
            String.toList_append] at enough ⊢
          rw [List.length_append] at enough
          rw [List.append_assoc]
          exact readMembers_last (readsValue fuel _ (by omega)) name read
      | cons next others =>
          rw [compactMembers_cons, compactMembers_cons, toList_intercalate_cons,
            ← compactMembers_cons, String.toList_append] at enough ⊢
          rw [List.length_append, List.length_append, List.length_cons] at enough
          rw [List.append_assoc, List.append_assoc, List.cons_append,
            readMembers_next (readsValue fuel _ (by dsimp only at enough; omega)) name read,
            ih (List.cons_ne_nil _ _)
              (fun other member => reads other (List.mem_cons_of_mem _ member)) _ (by omega),
            List.reverse_cons, List.append_assoc, List.singleton_append]

theorem intercalate_head {text : String} {c : Char} {more : List Char}
    (head : text.toList = c :: more) (others : List String) :
    ∃ rest, (",".intercalate (text :: others)).toList = c :: rest := by
  cases others with
  | nil => exact ⟨more, by rw [String.intercalate_singleton, head]⟩
  | cons next others => exact ⟨_, by rw [toList_intercalate_cons, head, List.cons_append]⟩

theorem readValue_array {fuel : Nat} {c : Char} {chars rest : List Char} {items : List Json}
    (visible : isSpace c = false) (notClosed : c ≠ ']')
    (reads : readItems fuel [] (c :: chars) = some (items, rest)) :
    readValue (fuel + 1) ('[' :: c :: chars) = some (.array items, rest) := by
  rw [readValue, skipSpaces_cons rfl]
  simp only [skipSpaces_cons visible]
  split
  · next same => exact absurd (List.cons.inj same).1 notClosed
  · rw [reads, Option.map_some]

theorem readValue_object {fuel : Nat} {chars rest : List Char} {members : List (String × Json)}
    (reads : readMembers fuel [] ('"' :: chars) = some (members, rest)) :
    readValue (fuel + 1) ('\x7b' :: '"' :: chars) = some (.object members, rest) := by
  rw [readValue, skipSpaces_cons rfl]
  simp only [skipSpaces_cons (show isSpace '"' = false from rfl), reads, Option.map_some]
  rfl

theorem readsBack_of_succ {json : Json} (plain : json.NumberFree)
    (reads : ∀ fuel rest, 2 * json.compact.toList.length ≤ fuel + 1 →
      readValue (fuel + 1) (json.compact.toList ++ rest) = some (json, rest)) :
    json.ReadsBack := by
  intro fuel rest enough
  cases fuel with
  | succ fuel => exact reads fuel rest enough
  | zero =>
      obtain ⟨c, more, head, _⟩ := compact_head plain
      rw [head, List.length_cons] at enough
      omega

theorem readsBack_array {items : List Json} (plain : ∀ item ∈ items, NumberFree item)
    (reads : ∀ item ∈ items, ReadsBack item) : ReadsBack (.array items) := by
  refine readsBack_of_succ (.array plain) fun fuel rest enough => ?_
  rw [toList_compact_array] at enough ⊢
  rw [List.length_cons, List.length_append, List.length_singleton] at enough
  rw [List.cons_append, List.append_assoc, List.singleton_append]
  cases items with
  | nil => rfl
  | cons item others =>
      obtain ⟨c, more, head, visible, notEnd⟩ := compact_head (plain item List.mem_cons_self)
      obtain ⟨chars, starts⟩ := intercalate_head head (compactItems others)
      have all := readItems_compact (List.cons_ne_nil item others) reads [] rest
        (show _ < fuel by omega)
      rw [compactItems, starts] at all ⊢
      exact readValue_array visible notEnd all

theorem readsBack_object {members : List (String × Json)}
    (plain : ∀ member ∈ members, NumberFree member.2)
    (reads : ∀ member ∈ members, ReadsBack member.2) : ReadsBack (.object members) := by
  refine readsBack_of_succ (.object plain) fun fuel rest enough => ?_
  rw [toList_compact_object] at enough ⊢
  rw [List.length_cons, List.length_append, List.length_singleton] at enough
  rw [List.cons_append, List.append_assoc, List.singleton_append]
  cases members with
  | nil => rfl
  | cons member others =>
      have head : (quote member.1 ++ ":" ++ compact member.2).toList =
          '"' :: (member.1.toList.flatMap escapeChar ++ ['"'] ++
            (":" ++ compact member.2).toList) := by
        rw [String.append_assoc, String.toList_append, toList_quote, List.cons_append]
      obtain ⟨chars, starts⟩ := intercalate_head head (compactMembers others)
      have all := readMembers_compact (List.cons_ne_nil member others) reads [] rest
        (show _ < fuel by omega)
      rw [compactMembers_cons, starts] at all ⊢
      exact readValue_object all

theorem readsBack {json : Json} (plain : json.NumberFree) : json.ReadsBack := by
  induction plain with
  | null => exact readsBack_of_succ .null fun _ _ _ => rfl
  | bool value => exact readsBack_of_succ (.bool value) fun _ _ _ => by cases value <;> rfl
  | string text =>
      refine readsBack_of_succ (.string text) fun fuel rest _ => ?_
      rw [compact, toList_quote, List.cons_append, readValue, skipSpaces_cons rfl]
      simp only [readString_quoted, Option.map_some]
  | array plain reads => exact readsBack_array plain reads
  | object plain reads => exact readsBack_object plain reads

theorem readAnyDepth_compact {json : Json} (plain : json.NumberFree) :
    readAnyDepth json.compact = some json := by
  have reads := readsBack plain (2 * json.compact.toList.length + 2) [] (Nat.le_add_right _ _)
  rw [List.append_nil] at reads
  simp only [readAnyDepth, reads]
  rfl

theorem read_compact {json : Json} (plain : json.NumberFree) (shallow : json.depth ≤ deepest) :
    read json.compact = some json := by
  rw [read, readAnyDepth_compact plain, Option.filter_some, if_pos (decide_eq_true shallow)]

/-! Names that occur once -/

theorem setMember_of_notMem {members : List (String × Json)} {name : String}
    (absent : name ∉ members.map Prod.fst) (value : Json) :
    setMember name value members = members ++ [(name, value)] := by
  induction members with
  | nil => rfl
  | cons member rest ih =>
      obtain ⟨notHere, notLater⟩ := not_or.mp (List.mem_cons.not.mp absent)
      rw [setMember, if_neg (Ne.symm notHere), ih notLater, List.cons_append]

theorem lastWinsMembers_of_nodup {before members : List (String × Json)}
    (nodup : ((before ++ members).map Prod.fst).Nodup) :
    lastWinsMembers before members =
      before ++ members.map fun member => (member.1, lastWins member.2) := by
  induction members generalizing before with
  | nil => simp [lastWinsMembers]
  | cons member rest ih =>
      obtain ⟨name, value⟩ := member
      have absent : name ∉ before.map Prod.fst := by
        intro member
        rw [List.map_append] at nodup
        exact List.disjoint_of_nodup_append nodup member (by simp)
      rw [lastWinsMembers, setMember_of_notMem absent, ih (by simpa using nodup)]
      simp

theorem lastWinsItems_eq (items : List Json) : lastWinsItems items = items.map lastWins := by
  induction items with
  | nil => rfl
  | cons item rest ih => rw [lastWinsItems, ih, List.map_cons]

theorem depthItems_le_iff {items : List Json} {bound : Nat} :
    depthItems items ≤ bound ↔ ∀ item ∈ items, item.depth ≤ bound := by
  induction items with
  | nil => simp [depthItems]
  | cons item rest ih => rw [depthItems, Nat.max_le, ih, List.forall_mem_cons]

theorem depthMembers_le_iff {members : List (String × Json)} {bound : Nat} :
    depthMembers members ≤ bound ↔ ∀ member ∈ members, member.2.depth ≤ bound := by
  induction members with
  | nil => simp [depthMembers]
  | cons member rest ih => rw [depthMembers, Nat.max_le, ih, List.forall_mem_cons]

/-- A value that comes back from its text as it is: it has no numbers and no name twice, and is
nested no deeper than a bound. -/
structure Faithful (bound : Nat) (json : Json) : Prop where
  numberFree : json.NumberFree
  single : json.lastWins = json
  shallow : json.depth ≤ bound

namespace Faithful

variable {bound : Nat}

theorem mono {other : Nat} {json : Json} (faithful : Faithful bound json) (within : bound ≤ other) :
    Faithful other json :=
  ⟨faithful.numberFree, faithful.single, Nat.le_trans faithful.shallow within⟩

theorem string (text : String) : Faithful bound (.string text) :=
  ⟨.string text, rfl, Nat.zero_le _⟩

theorem array {items : List Json} (each : ∀ item ∈ items, Faithful bound item) :
    Faithful (bound + 1) (.array items) where
  numberFree := .array fun item member => (each item member).numberFree
  single := by
    have same : items.map lastWins = items :=
      (List.map_congr_left fun item member => (each item member).single).trans items.map_id'
    rw [lastWins, lastWinsItems_eq, same]
  shallow := by
    rw [depth]
    exact Nat.succ_le_succ (depthItems_le_iff.mpr fun item member => (each item member).shallow)

theorem object {members : List (String × Json)} (nodup : (members.map Prod.fst).Nodup)
    (each : ∀ member ∈ members, Faithful bound member.2) :
    Faithful (bound + 1) (.object members) where
  numberFree := .object fun member inside => (each member inside).numberFree
  single := by
    have same : members.map (fun member => (member.1, lastWins member.2)) = members := by
      refine (List.map_congr_left fun member inside => ?_).trans members.map_id'
      rw [(each member inside).single]
    have once : (([] ++ members).map Prod.fst).Nodup := nodup
    rw [lastWins, lastWinsMembers_of_nodup once, same, List.nil_append]
  shallow := by
    rw [depth]
    exact Nat.succ_le_succ
      (depthMembers_le_iff.mpr fun member inside => (each member inside).shallow)

theorem ofMembers {fields : List (String × Option Json)} (nodup : (fields.map Prod.fst).Nodup)
    (each : ∀ field ∈ fields, ∀ value ∈ field.2, Faithful bound value) :
    Faithful (bound + 1) (Json.ofMembers fields) := by
  refine object (nodup.sublist (names_present_sublist fields)) fun member inside => ?_
  obtain ⟨field, listed, written⟩ := List.mem_filterMap.mp inside
  obtain ⟨value, given, rfl⟩ := Option.map_eq_some_iff.mp written
  exact each field listed value given

theorem texts {α : Type} (text : α → String) (items : List α) :
    Faithful (bound + 1) (.array (items.map fun item => .string (text item))) := by
  refine array fun item member => ?_
  obtain ⟨own, _, rfl⟩ := List.mem_map.mp member
  exact string _

theorem optionalText {α : Type} (text : α → String) (value : Option α) :
    ∀ json ∈ value.map fun item => Json.string (text item), Faithful bound json := by
  intro json given
  obtain ⟨own, _, rfl⟩ := Option.map_eq_some_iff.mp given
  exact string _

theorem read_compact {json : Json} (faithful : Faithful deepest json) :
    read json.compact = some json :=
  Json.read_compact faithful.numberFree faithful.shallow

end Faithful

end CatalogBrowser.Json
