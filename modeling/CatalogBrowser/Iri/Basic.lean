import CatalogBrowser.Text.Blank

/-!
Identifiers of concepts and of the sources they come from.

Any text without blanks can identify a concept; it need not be an absolute IRI.  The local name
of an identifier is its last part after `#`, `/` or `:`.
-/

namespace CatalogBrowser

inductive IriError where
  | empty
  | invalid (text : String)
  deriving Repr, DecidableEq

def IriError.message : IriError → String
  | .empty => "IRI must not be empty"
  | .invalid text => "invalid IRI: " ++ text

def Iri.usableChars (chars : List Char) : Bool :=
  !chars.isEmpty && chars.all fun c => !Text.isBlank c

structure Iri where
  text : String
  usable : Iri.usableChars text.toList = true
  deriving DecidableEq

namespace Iri

theorem visible_of_usable {chars : List Char} (usable : usableChars chars = true) :
    ∀ c ∈ chars, Text.isBlank c = false := by
  simpa using (Bool.and_eq_true_iff.mp usable).2

theorem text_injective : Function.Injective text := by
  rintro ⟨left, _⟩ ⟨right, _⟩ same
  subst same
  rfl

/-- Accepts a text as it stands, without trimming. -/
def ofText (text : String) : Except IriError Iri :=
  if Text.isBlankText text then .error .empty
  else if usable : usableChars text.toList = true then .ok ⟨text, usable⟩
  else .error (.invalid text)

def ofText? (text : String) : Option Iri := (ofText text).toOption

theorem isBlankText_text (iri : Iri) : Text.isBlankText iri.text = false := by
  obtain ⟨notEmpty, clear⟩ := Bool.and_eq_true_iff.mp iri.usable
  cases chars : iri.text.toList with
  | nil => simp [chars] at notEmpty
  | cons first rest =>
    rw [chars, List.all_cons, Bool.and_eq_true, Bool.not_eq_true'] at clear
    rw [Text.isBlankText, chars, List.all_cons, clear.1, Bool.false_and]

theorem ofText?_text (iri : Iri) : ofText? iri.text = some iri := by
  rw [ofText?, ofText, isBlankText_text, dif_pos iri.usable]
  rfl

theorem ofText?_eq_some_iff {text : String} {iri : Iri} :
    ofText? text = some iri ↔ ofText text = .ok iri := by
  unfold ofText?
  cases ofText text with
  | ok own => simp [Except.toOption]
  | error error => simp [Except.toOption]

theorem ofText_eq_ok_iff {text : String} {iri : Iri} : ofText text = .ok iri ↔ iri.text = text := by
  constructor
  · intro accepted
    unfold ofText at accepted
    split at accepted
    · nomatch accepted
    · split at accepted
      · cases accepted
        rfl
      · nomatch accepted
  · rintro rfl
    exact ofText?_eq_some_iff.mp iri.ofText?_text

theorem ofText_of_usable {text : String} (usable : usableChars text.toList = true) :
    ofText text = .ok ⟨text, usable⟩ :=
  ofText_eq_ok_iff.mpr rfl

theorem ofText_of_unusable {text : String} (unusable : usableChars text.toList = false) :
    ∃ cause, ofText text = .error cause := by
  unfold ofText
  split
  · exact ⟨_, rfl⟩
  · rw [dif_neg (by simp [unusable])]
    exact ⟨_, rfl⟩

def isSeparator (c : Char) : Bool := c = '#' || c = '/' || c = ':'

def localChars (chars : List Char) : List Char :=
  let tail := ((chars.reverse.dropWhile isSeparator).takeWhile fun c => !isSeparator c).reverse
  if tail.isEmpty then chars else tail

def localName (iri : Iri) : String := String.ofList (localChars iri.text.toList)

end Iri

structure SourceId where
  name : String
  deriving Repr, DecidableEq

namespace SourceId

def before (left right : SourceId) : Bool := left.name < right.name

def groupId (source : SourceId) : String := "source:" ++ source.name

end SourceId

end CatalogBrowser
