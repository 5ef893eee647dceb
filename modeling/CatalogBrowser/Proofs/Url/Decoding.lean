import CatalogBrowser.Url.Percent

/-!
What was percent-encoded can be read back, both from the path of a URL and from a form.
-/

namespace CatalogBrowser.Url

def decodedText? (chars : List Char) : Option String :=
  String.fromUTF8? (decode chars).toByteArray

theorem hexValue?_hexDigit : ∀ value < 16, hexValue? (hexDigit value) = some value := by decide

theorem decode_encodeByte (byte : UInt8) (rest : List Char) :
    decode (encodeByte byte ++ rest) = byte :: decode rest := by
  have bound := byte.toNat_lt
  have upper := hexValue?_hexDigit (byte.toNat / 16) (by omega)
  have lower := hexValue?_hexDigit (byte.toNat % 16) (by omega)
  have whole : byte.toNat / 16 * 16 + byte.toNat % 16 = byte.toNat := by omega
  simp only [encodeByte, List.cons_append, List.nil_append, decode, upper, lower, whole,
    UInt8.ofNat_toNat]

theorem decode_flatMap_encodeByte (bytes : List UInt8) (rest : List Char) :
    decode (bytes.flatMap encodeByte ++ rest) = bytes ++ decode rest := by
  induction bytes with
  | nil => rfl
  | cons byte others ih =>
      rw [List.flatMap_cons, List.append_assoc, decode_encodeByte, ih, List.cons_append]

theorem decode_cons_of_ne {c : Char} (plain : c ≠ '%') (rest : List Char) :
    decode (c :: rest) = String.utf8EncodeChar c ++ decode rest := by
  rw [decode]
  rintro high low others same
  exact absurd same plain

theorem decode_encodeChar {set : EncodeSet} (escapes : set '%' = true) (c : Char)
    (rest : List Char) :
    decode (encodeChar set c ++ rest) = String.utf8EncodeChar c ++ decode rest := by
  unfold encodeChar
  split
  · exact decode_flatMap_encodeByte _ _
  · next kept =>
    have plain : c ≠ '%' := by
      rintro rfl
      exact kept escapes
    exact decode_cons_of_ne plain rest

theorem decode_encode {set : EncodeSet} (escapes : set '%' = true) (chars : List Char) :
    decode (encode set chars) = chars.flatMap String.utf8EncodeChar := by
  unfold encode
  induction chars with
  | nil => rfl
  | cons c rest ih => rw [List.flatMap_cons, decode_encodeChar escapes, ih, List.flatMap_cons]

theorem fromUTF8?_flatMap (chars : List Char) :
    String.fromUTF8? (chars.flatMap String.utf8EncodeChar).toByteArray =
      some (String.ofList chars) := by
  have valid : (chars.flatMap String.utf8EncodeChar).toByteArray.IsValidUTF8 := ⟨chars, rfl⟩
  rw [String.fromUTF8?, dif_pos valid]
  rfl

theorem decodedText?_encode {set : EncodeSet} (escapes : set '%' = true) (chars : List Char) :
    decodedText? (encode set chars) = some (String.ofList chars) := by
  rw [decodedText?, decode_encode escapes, fromUTF8?_flatMap]

theorem flatMap_utf8EncodeChar_inj {first second : List Char}
    (same : first.flatMap String.utf8EncodeChar = second.flatMap String.utf8EncodeChar) :
    first = second := by
  have texts := congrArg (fun bytes => String.fromUTF8? (List.toByteArray bytes)) same
  simp only [fromUTF8?_flatMap] at texts
  exact String.ofList_injective (Option.some.inj texts)

/-! Which characters can stand in an encoded text -/

theorem hexDigit_notMem : ∀ value < 16, hexDigit value ∉ ['/', '?', '+', ' '] := by decide

theorem notMem_encodeByte {c : Char} (special : c ∈ ['/', '?', '+', ' ']) (byte : UInt8) :
    c ∉ encodeByte byte := by
  have bound := byte.toNat_lt
  have different {value : Nat} (small : value < 16) : c ≠ hexDigit value :=
    fun same => hexDigit_notMem value small (same ▸ special)
  have upper := different (show byte.toNat / 16 < 16 by omega)
  have lower := different (show byte.toNat % 16 < 16 by omega)
  have percent : c ≠ '%' := by
    rintro rfl
    simp at special
  simp [encodeByte, percent, upper, lower]

theorem notMem_encode {set : EncodeSet} {c : Char} (special : c ∈ ['/', '?', '+', ' '])
    (escapes : set c = true) (chars : List Char) : c ∉ encode set chars := by
  intro member
  obtain ⟨other, _, inside⟩ := List.mem_flatMap.mp member
  unfold encodeChar at inside
  split at inside
  · obtain ⟨byte, _, here⟩ := List.mem_flatMap.mp inside
    exact notMem_encodeByte special byte here
  · next kept =>
    obtain rfl := List.mem_singleton.mp inside
    exact kept escapes

/-! Forms -/

def plusAsBlank (chars : List Char) : List Char :=
  chars.map fun c => if c = '+' then ' ' else c

theorem plusAsBlank_of_notMem {chars : List Char} (without : '+' ∉ chars) :
    plusAsBlank chars = chars := by
  unfold plusAsBlank
  rw [List.map_congr_left (g := id), List.map_id]
  intro c member
  have different : c ≠ '+' := by
    rintro rfl
    exact without member
  exact if_neg different

theorem toNat_ofNat_byte (byte : UInt8) : (Char.ofNat byte.toNat).toNat = byte.toNat := by
  have bound := byte.toNat_lt
  have valid : byte.toNat.isValidChar := Or.inl (by omega)
  rw [Char.ofNat, dif_pos valid]
  rfl

theorem utf8EncodeChar_byte {byte : UInt8} (ascii : byte.toNat < 0x80) :
    String.utf8EncodeChar (Char.ofNat byte.toNat) = [byte] := by
  have code : (Char.ofNat byte.toNat).val.toNat = byte.toNat := toNat_ofNat_byte byte
  unfold String.utf8EncodeChar
  rw [code, if_pos (by omega), UInt8.ofNat_toNat]

theorem decode_encodeFormByte (byte : UInt8) (rest : List Char) :
    decode (plusAsBlank (encodeFormByte byte) ++ rest) = byte :: decode rest := by
  simp only [encodeFormByte]
  split
  · next plain =>
    simp only [Bool.and_eq_true, decide_eq_true_eq] at plain
    obtain ⟨ascii, kept⟩ := plain
    have reserved : ∀ c ∈ ['+', '%'], (c.isAlphanum || "*-._".toList.contains c) = false := by
      rw [List.forall_mem_cons, List.forall_mem_singleton]
      decide
    have different : ∀ c ∈ ['+', '%'], Char.ofNat byte.toNat ≠ c := by
      intro c special same
      rw [same, reserved c special] at kept
      exact absurd kept Bool.false_ne_true
    rw [plusAsBlank, List.map_singleton, if_neg (different '+' (by simp)), List.singleton_append,
      decode_cons_of_ne (different '%' (by simp)), utf8EncodeChar_byte ascii, List.singleton_append]
  · split
    · next blank =>
      have code := toNat_ofNat_byte byte
      rw [blank] at code
      have ascii : byte.toNat < 0x80 := by
        rw [← code]
        decide
      rw [plusAsBlank, List.map_singleton, if_pos rfl, List.singleton_append,
        decode_cons_of_ne (by decide), ← blank, utf8EncodeChar_byte ascii, List.singleton_append]
    · rw [plusAsBlank_of_notMem (notMem_encodeByte (by simp) byte), decode_encodeByte]

theorem decode_encodeForm (chars : List Char) :
    decode (plusAsBlank (encodeForm chars)) = chars.flatMap String.utf8EncodeChar := by
  unfold encodeForm
  induction chars.flatMap String.utf8EncodeChar with
  | nil => rfl
  | cons byte rest ih =>
      rw [List.flatMap_cons, plusAsBlank, List.map_append, ← plusAsBlank, ← plusAsBlank,
        decode_encodeFormByte, ih]

theorem encodeForm_inj {first second : List Char} (same : encodeForm first = encodeForm second) :
    first = second := by
  have bytes := congrArg (fun form => decode (plusAsBlank form)) same
  simp only [decode_encodeForm] at bytes
  exact flatMap_utf8EncodeChar_inj bytes

end CatalogBrowser.Url
