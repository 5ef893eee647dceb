import CatalogBrowser.Proofs.Url.Decoding
import CatalogBrowser.Url.Basic
import Mathlib.Data.List.Induction

/-!
The path of a URL after segments were put behind it: which segments it has, and which of them are
the texts that were put in.
-/

namespace CatalogBrowser.Url

/-- What a set must encode, and what it must not, so that segments stay apart. -/
structure Separating (set : EncodeSet) : Prop where
  percent : set '%' = true
  slash : set '/' = true
  question : set '?' = true
  dot : set '.' = false

theorem separating_segmentSet (special : Bool) :
    Separating (if special then specialSegmentSet else segmentSet) := by
  cases special <;> constructor <;> decide

def joined (set : EncodeSet) (front : List Char) (segments : List (List Char)) : List Char :=
  front ++ segments.flatMap fun segment => '/' :: encode set segment

def grown (segments : List (List Char)) (segment : List Char) : List (List Char) :=
  if segment = ['.'] || segment = ['.', '.'] then segments
  else
    let kept := segment.filter fun c => !isDropped c
    if kept = ['.', '.'] then segments.dropLast ++ [[]]
    else if kept = ['.'] then segments ++ [[]]
    else segments ++ [kept]

/-- The path that segments are put behind.  It does not end in an empty segment. -/
def stem (url : Url) : List Char :=
  let path := dropEmptySegment url.path.toList
  if path = ['/'] then [] else path

section

variable {set : EncodeSet} {front : List Char} {segments : List (List Char)}

theorem joined_front (set : EncodeSet) (front : List Char) (segments : List (List Char)) :
    joined set front segments = front ++ joined set [] segments := by
  simp [joined]

theorem joined_cons (set : EncodeSet) (front first : List Char) (rest : List (List Char)) :
    joined set front (first :: rest) = front ++ '/' :: joined set (encode set first) rest := by
  simp [joined]

theorem joined_concat (set : EncodeSet) (front : List Char) (segments : List (List Char))
    (segment : List Char) :
    joined set front (segments ++ [segment]) =
      joined set front segments ++ '/' :: encode set segment := by
  simp [joined]

/-! What segments and query pairs leave as it is -/

@[simp] theorem scheme_withSegments (url : Url) (texts : List String) :
    (url.withSegments texts).scheme = url.scheme := rfl

@[simp] theorem authority_withSegments (url : Url) (texts : List String) :
    (url.withSegments texts).authority = url.authority := rfl

@[simp] theorem scheme_withQueryPair (url : Url) (name value : String) :
    (url.withQueryPair name value).scheme = url.scheme := rfl

@[simp] theorem authority_withQueryPair (url : Url) (name value : String) :
    (url.withQueryPair name value).authority = url.authority := rfl

@[simp] theorem path_withQueryPair (url : Url) (name value : String) :
    (url.withQueryPair name value).path = url.path := rfl

theorem withQueryPair_inj {url : Url} {name first second : String}
    (same : (url.withQueryPair name first).query = (url.withQueryPair name second).query) :
    first = second := by
  have pairs : encodeForm name.toList ++ ['='] ++ encodeForm first.toList =
      encodeForm name.toList ++ ['='] ++ encodeForm second.toList := by
    apply String.ofList_injective
    simp only [withQueryPair, Option.some.injEq] at same
    split at same
    · exact same
    · exact same
    · exact (String.append_right_inj _).mp same
  exact String.toList_injective (encodeForm_inj (List.append_cancel_left pairs))

/-! Dot segments -/

theorem decode_doubleDots : ∀ text ∈ ["..", ".%2e", ".%2E", "%2e.", "%2E.", "%2e%2e", "%2e%2E",
    "%2E%2e", "%2E%2E"], decode text.toList = ['.', '.'].flatMap String.utf8EncodeChar := by
  decide

theorem decode_singleDots : ∀ text ∈ [".", "%2e", "%2E"],
    decode text.toList = ['.'].flatMap String.utf8EncodeChar := by
  decide

theorem isDoubleDot_encode (separating : Separating set) (segment : List Char) :
    isDoubleDot (encode set segment) = true ↔ segment = ['.', '.'] := by
  constructor
  · intro dots
    have bytes := decode_doubleDots _ (List.contains_iff_mem.mp dots)
    rw [String.toList_ofList, decode_encode separating.percent] at bytes
    exact flatMap_utf8EncodeChar_inj bytes
  · rintro rfl
    have itself : encode set ['.', '.'] = ['.', '.'] := by
      simp [encode, encodeChar, separating.dot]
    rw [itself]
    decide

theorem isSingleDot_encode (separating : Separating set) (segment : List Char) :
    isSingleDot (encode set segment) = true ↔ segment = ['.'] := by
  constructor
  · intro dot
    have bytes := decode_singleDots _ (List.contains_iff_mem.mp dot)
    rw [String.toList_ofList, decode_encode separating.percent] at bytes
    exact flatMap_utf8EncodeChar_inj bytes
  · rintro rfl
    have itself : encode set ['.'] = ['.'] := by simp [encode, encodeChar, separating.dot]
    rw [itself]
    decide

theorem upToSlash_append (before : List Char) {after : List Char} (without : '/' ∉ after) :
    upToSlash (before ++ '/' :: after) = before ++ ['/'] := by
  have passed : ∀ c ∈ after.reverse, decide (c ≠ '/') = true := fun c member =>
    decide_eq_true (ne_of_mem_of_not_mem (List.mem_reverse.mp member) without)
  rw [upToSlash, List.reverse_append, List.reverse_cons, List.append_assoc,
    List.dropWhile_append_of_pos passed]
  simp

theorem shorten_joined (separating : Separating set) (some : segments ≠ []) :
    shorten (joined set front segments ++ ['/']) =
      joined set front (segments.dropLast ++ [[]]) := by
  obtain ⟨init, last, rfl⟩ := List.eq_nil_or_concat segments |>.resolve_left some
  have without : '/' ∉ encode set last := notMem_encode (by simp) separating.slash last
  rw [List.concat_eq_append, List.dropLast_concat, joined_concat, joined_concat, shorten,
    List.dropLast_concat, if_pos (by simp), upToSlash_append _ without]
  rfl

theorem appendSegment_joined (separating : Separating set) (two : 2 ≤ segments.length)
    (segment : List Char) :
    appendSegment set (joined set front segments) segment =
      joined set front (grown segments segment) := by
  have long : joined set front segments ≠ ['/'] := by
    intro same
    have lengths := congrArg List.length same
    match segments, two with
    | first :: second :: more, _ =>
      simp [joined] at lengths
      omega
  simp only [appendSegment, grown, if_neg long, putSegment, isDoubleDot_encode separating,
    isSingleDot_encode separating]
  split
  · rfl
  · split
    · exact shorten_joined separating (List.ne_nil_of_length_pos (by omega))
    · split
      · rw [joined_concat]
        rfl
      · rw [joined_concat, List.append_assoc]
        rfl

theorem two_le_length_grown (two : 2 ≤ segments.length) (segment : List Char) :
    2 ≤ (grown segments segment).length := by
  simp only [grown]
  split
  · exact two
  · split
    · simp only [List.length_append, List.length_dropLast, List.length_singleton]
      omega
    · split <;> simp only [List.length_append, List.length_singleton] <;> omega

theorem foldl_appendSegment (separating : Separating set) (two : 2 ≤ segments.length)
    (more : List (List Char)) :
    more.foldl (appendSegment set) (joined set front segments) =
      joined set front (more.foldl grown segments) := by
  induction more generalizing segments with
  | nil => rfl
  | cons segment rest ih =>
      rw [List.foldl_cons, appendSegment_joined separating two,
        ih (two_le_length_grown two segment),
        List.foldl_cons]

theorem length_foldl_grown (two : 2 ≤ segments.length) (more : List (List Char)) :
    2 ≤ (more.foldl grown segments).length := by
  induction more generalizing segments with
  | nil => exact two
  | cons segment rest ih => exact ih (two_le_length_grown two segment)

/-! Which texts come through -/

/-- A text that a path can hold as a segment: no dot segment, and no character that is dropped. -/
structure Addressable (segment : List Char) : Prop where
  single : segment ≠ ['.']
  double : segment ≠ ['.', '.']
  kept : ∀ c ∈ segment, isDropped c = false

theorem addressable_iff (segment : List Char) :
    segment ≠ ['.'] ∧ segment ≠ ['.', '.'] ∧ (segment.all fun c => !isDropped c) = true ↔
      Addressable segment := by
  constructor
  · rintro ⟨single, double, kept⟩
    exact ⟨single, double, fun c member => by simpa using List.all_eq_true.mp kept c member⟩
  · rintro ⟨single, double, kept⟩
    exact ⟨single, double, by simpa using kept⟩

instance (segment : List Char) : Decidable (Addressable segment) :=
  decidable_of_iff _ (addressable_iff segment)

theorem Addressable.filter_eq {segment : List Char} (addressable : Addressable segment) :
    segment.filter (fun c => !isDropped c) = segment := by
  rw [List.filter_eq_self]
  intro c member
  simp [addressable.kept c member]

theorem grown_of_addressable {segment : List Char} (addressable : Addressable segment) :
    grown segments segment = segments ++ [segment] := by
  simp [grown, addressable.single, addressable.double, addressable.filter_eq]

theorem foldl_grown {more : List (List Char)}
    (addressable : ∀ segment ∈ more, Addressable segment) :
    more.foldl grown segments = segments ++ more := by
  induction more generalizing segments with
  | nil => simp
  | cons segment rest ih =>
      rw [List.foldl_cons, grown_of_addressable (addressable segment List.mem_cons_self),
        ih fun other member => addressable other (List.mem_cons_of_mem _ member),
        List.append_assoc, List.singleton_append]

theorem length_grown_le (segments : List (List Char)) (segment : List Char) :
    (grown segments segment).length ≤ segments.length + 1 := by
  simp only [grown]
  split
  · exact Nat.le_succ _
  · split
    · simp
    · split <;> simp

theorem length_foldl_grown_le (segments more : List (List Char)) :
    (more.foldl grown segments).length ≤ segments.length + more.length := by
  induction more generalizing segments with
  | nil => exact Nat.le_refl _
  | cons segment rest ih =>
      have first := length_grown_le segments segment
      have later := ih (grown segments segment)
      rw [List.foldl_cons, List.length_cons]
      omega

theorem foldl_grown_eq_iff (segments more : List (List Char)) :
    more.foldl grown segments = segments ++ more ↔ ∀ segment ∈ more, Addressable segment := by
  refine ⟨fun same => ?_, foldl_grown⟩
  -- from the end, so that what comes before the last segment is as long as it can be
  induction more using List.reverseRecOn with
  | nil => simp
  | append_singleton rest segment ih =>
      rw [List.foldl_append, List.foldl_cons, List.foldl_nil, ← List.append_assoc] at same
      simp only [grown, Bool.or_eq_true, decide_eq_true_eq] at same
      split at same
      · have bound := length_foldl_grown_le segments rest
        rw [same] at bound
        simp only [List.length_append, List.length_singleton] at bound
        omega
      · next dotless =>
        obtain ⟨single, double⟩ := not_or.mp dotless
        -- an empty segment has nothing left of it that could be dots
        have nonempty : ∀ dots, segment.filter (fun c => !isDropped c) = '.' :: dots →
            [] ≠ segment := by
          rintro dots kept rfl
          simp at kept
        split at same
        · next kept =>
          obtain ⟨_, last⟩ := List.append_inj' same rfl
          exact absurd (List.singleton_inj.mp last) (nonempty _ kept)
        · split at same
          · next kept =>
            obtain ⟨_, last⟩ := List.append_inj' same rfl
            exact absurd (List.singleton_inj.mp last) (nonempty _ kept)
          · obtain ⟨before, last⟩ := List.append_inj' same rfl
            have whole := List.filter_eq_self.mp (List.singleton_inj.mp last)
            intro other member
            rcases List.mem_append.mp member with earlier | here
            · exact ih before other earlier
            · obtain rfl := List.mem_singleton.mp here
              exact ⟨single, double, fun c inside => by simpa using whole c inside⟩

/-! Reading a path -/

theorem splitAt_ne_nil (isSeparator : Char → Bool) (chars : List Char) :
    splitAt isSeparator chars ≠ [] := by
  cases chars with
  | nil => simp [splitAt]
  | cons c rest =>
      rw [splitAt]
      split
      · simp
      · split <;> simp

theorem splitAt_of_notMem {chars : List Char} (without : '/' ∉ chars) :
    splitAt (· = '/') chars = [chars] := by
  induction chars with
  | nil => rfl
  | cons c rest ih =>
      simp only [List.mem_cons, not_or] at without
      obtain ⟨different, later⟩ := without
      simp [splitAt, ih later, Ne.symm different]

theorem splitAt_append {chars : List Char} (without : '/' ∉ chars) (rest : List Char) :
    splitAt (· = '/') (chars ++ '/' :: rest) = chars :: splitAt (· = '/') rest := by
  induction chars with
  | nil =>
      obtain ⟨first, others, parts⟩ := List.exists_cons_of_ne_nil (splitAt_ne_nil (· = '/') rest)
      simp [splitAt, parts]
  | cons c more ih =>
      simp only [List.mem_cons, not_or] at without
      obtain ⟨different, later⟩ := without
      simp [splitAt, ih later, Ne.symm different]

def segmentTexts (path : List Char) : List (Option String) :=
  (splitAt (· = '/') path).map decodedText?

theorem splitAt_joined (separating : Separating set) (first : List Char)
    (rest : List (List Char)) :
    splitAt (· = '/') (joined set (encode set first) rest) = (first :: rest).map (encode set) := by
  have without := fun segment => notMem_encode (c := '/') (by simp) separating.slash segment
  induction rest generalizing first with
  | nil => simpa [joined] using splitAt_of_notMem (without first)
  | cons second more ih =>
      rw [joined_cons, splitAt_append (without first), ih second]
      rfl

theorem encode_inj (separating : Separating set) {first second : List Char}
    (same : encode set first = encode set second) : first = second := by
  have bytes := congrArg decode same
  rw [decode_encode separating.percent, decode_encode separating.percent] at bytes
  exact flatMap_utf8EncodeChar_inj bytes

theorem joined_inj (separating : Separating set) {first second : List (List Char)}
    (same : joined set front first = joined set front second) : first = second := by
  have rest := List.append_cancel_left same
  match first, second with
  | [], [] => rfl
  | [], _ :: _ | _ :: _, [] => simp at rest
  | head :: tail, other :: others =>
    rw [joined_cons, joined_cons] at same
    have behind := (List.cons.inj (List.append_cancel_left same)).2
    have parts := congrArg (splitAt (· = '/')) behind
    rw [splitAt_joined separating, splitAt_joined separating] at parts
    exact (List.map_inj_right fun _ _ => encode_inj separating).mp parts

theorem notMem_joined_nil (separating : Separating set) (segments : List (List Char)) :
    '?' ∉ joined set [] segments := by
  intro member
  obtain ⟨segment, _, inside⟩ := List.mem_flatMap.mp member
  rcases List.mem_cons.mp inside with slash | encoded
  · simp at slash
  · exact notMem_encode (by simp) separating.question segment encoded

theorem segmentTexts_joined (separating : Separating set) (first : List Char)
    (rest : List (List Char)) :
    segmentTexts (joined set (encode set first) rest) =
      (first :: rest).map fun segment => some (String.ofList segment) := by
  rw [segmentTexts, splitAt_joined separating, List.map_map]
  exact List.map_congr_left fun segment _ => decodedText?_encode separating.percent segment

/-! The front of a path -/

theorem appendSegment_of_addressable (separating : Separating set) (path : List Char)
    {segment : List Char} (addressable : Addressable segment) :
    appendSegment set path segment =
      (if path = ['/'] then path else path ++ ['/']) ++ encode set segment := by
  simp only [appendSegment, addressable.single, addressable.double, decide_false, Bool.or_self,
    Bool.false_eq_true, if_false, addressable.filter_eq, putSegment,
    isDoubleDot_encode separating, isSingleDot_encode separating]

theorem appendSegment_stem (separating : Separating set) (url : Url) {segment : List Char}
    (addressable : Addressable segment) :
    appendSegment set (dropEmptySegment url.path.toList) segment =
      joined set url.stem [segment] := by
  rw [appendSegment_of_addressable separating _ addressable, stem]
  by_cases bare : dropEmptySegment url.path.toList = ['/'] <;> simp [bare, joined]

theorem appendSegment_joined_singleton (separating : Separating set) {first second : List Char}
    (visible : first ≠ []) (addressable : Addressable second) :
    appendSegment set (joined set front [first]) second = joined set front [first, second] := by
  have long : joined set front [first] ≠ ['/'] := by
    intro same
    have empty : encode set first = [] := by
      have parts : front ++ '/' :: encode set first = [] ++ '/' :: [] := by
        simpa [joined] using same
      have lengths := congrArg List.length parts
      simp only [List.length_append, List.length_cons, List.length_nil] at lengths
      exact List.eq_nil_of_length_eq_zero (by omega)
    refine visible (flatMap_utf8EncodeChar_inj ?_)
    rw [← decode_encode separating.percent, empty]
    rfl
  rw [appendSegment_of_addressable separating _ addressable, if_neg long]
  simp [joined]

end

theorem path_withSegments (url : Url) {first second : String} (more : List String)
    (visible : first.toList ≠ []) (firstFits : Addressable first.toList)
    (secondFits : Addressable second.toList) :
    (url.withSegments (first :: second :: more)).path.toList =
      joined (if url.isSpecial then specialSegmentSet else segmentSet) url.stem
        ((more.map String.toList).foldl grown [first.toList, second.toList]) := by
  have separating := separating_segmentSet url.isSpecial
  have two : 2 ≤ [first.toList, second.toList].length := Nat.le_refl 2
  rw [← foldl_appendSegment separating two,
    ← appendSegment_joined_singleton separating visible secondFits,
    ← appendSegment_stem separating url firstFits, List.foldl_map]
  simp only [withSegments, String.toList_ofList, List.foldl_cons]

theorem segmentTexts_withSegments (url : Url) {first second : String} (more : List String)
    (visible : first.toList ≠ []) (firstFits : Addressable first.toList)
    (secondFits : Addressable second.toList) :
    ∃ rest, (url.withSegments (first :: second :: more)).path.toList = url.stem ++ '/' :: rest ∧
      (segmentTexts rest = (first :: second :: more).map some ↔
        ∀ segment ∈ more, Addressable segment.toList) := by
  have separating := separating_segmentSet url.isSpecial
  have path := url.path_withSegments more visible firstFits secondFits
  have came := foldl_grown_eq_iff [first.toList, second.toList] (more.map String.toList)
  have two : 2 ≤ [first.toList, second.toList].length := Nat.le_refl 2
  have long := length_foldl_grown two (more.map String.toList)
  generalize (more.map String.toList).foldl grown [first.toList, second.toList] = held at *
  obtain ⟨head, tail, rfl⟩ := List.exists_cons_of_length_pos (Nat.lt_of_lt_of_le Nat.two_pos long)
  refine ⟨_, path.trans (joined_cons _ _ head tail), ?_⟩
  have texts : (first :: second :: more).map some =
      ([first.toList, second.toList] ++ more.map String.toList).map
        fun segment => some (String.ofList segment) := by
    simp
  rw [segmentTexts_joined separating, texts, List.map_inj_right, came]
  · simp
  · intro segment other same
    exact String.ofList_injective (Option.some.inj same)

theorem path_withSegments_of_addressable (url : Url) {first second : String} {more : List String}
    (visible : first.toList ≠ [])
    (fits : ∀ segment ∈ first :: second :: more, Addressable segment.toList) :
    (url.withSegments (first :: second :: more)).path.toList =
      joined (if url.isSpecial then specialSegmentSet else segmentSet) url.stem
        ((first :: second :: more).map String.toList) := by
  have later : ∀ segment ∈ more.map String.toList, Addressable segment := by
    intro segment member
    obtain ⟨text, listed, rfl⟩ := List.mem_map.mp member
    exact fits text (by simp [listed])
  rw [url.path_withSegments more visible (fits first (by simp)) (fits second (by simp)),
    foldl_grown later]
  rfl

end CatalogBrowser.Url
