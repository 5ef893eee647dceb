import CatalogBrowser.Json.Basic
import CatalogBrowser.Number.Literal

/-!
Reading JSON text as RFC 8259 defines it.

Strings must not hold raw control characters or escapes of lone surrogates.  Numbers of any size
are accepted as long as their value is finite.  `Json.read` refuses text after the value and
values nested deeper than `deepest`; `Json.readAnyDepth` allows any depth.
-/

namespace CatalogBrowser.Json

def deepest : Nat := 127

def isSpace (c : Char) : Bool := c = ' ' || c = '\n' || c = '\t' || c = '\r'

def skipSpaces (chars : List Char) : List Char := chars.dropWhile isSpace

def hexValue? (c : Char) : Option Nat :=
  let code := c.toNat
  if 48 ≤ code && code ≤ 57 then some (code - 48)
  else if 65 ≤ code && code ≤ 70 then some (code - 55)
  else if 97 ≤ code && code ≤ 102 then some (code - 87)
  else none

def codeUnit? (a b c d : Char) : Option Nat := do
  let high ← hexValue? a
  let second ← hexValue? b
  let third ← hexValue? c
  let low ← hexValue? d
  some (high * 4096 + second * 256 + third * 16 + low)

def escaped? (c : Char) : Option Char :=
  match c with
  | '"' => some '"'
  | '\\' => some '\\'
  | '/' => some '/'
  | 'b' => some '\x08'
  | 'f' => some '\x0c'
  | 'n' => some '\n'
  | 'r' => some '\r'
  | 't' => some '\t'
  | _ => none

def isHighSurrogate (unit : Nat) : Bool := 0xD800 ≤ unit && unit ≤ 0xDBFF

def isLowSurrogate (unit : Nat) : Bool := 0xDC00 ≤ unit && unit ≤ 0xDFFF

def readString (read : List Char) : List Char → Option (String × List Char)
  | '"' :: rest => some (String.ofList read.reverse, rest)
  | '\\' :: 'u' :: a :: b :: c :: d :: rest =>
    match codeUnit? a b c d with
    | none => none
    | some unit =>
      if isHighSurrogate unit then
        match rest with
        | '\\' :: 'u' :: e :: f :: g :: h :: rest =>
          match codeUnit? e f g h with
          | none => none
          | some low =>
            if isLowSurrogate low then
              readString
                (Char.ofNat (0x10000 + (unit - 0xD800) * 0x400 + (low - 0xDC00)) :: read) rest
            else none
        | _ => none
      else if isLowSurrogate unit then none
      else readString (Char.ofNat unit :: read) rest
  | '\\' :: c :: rest =>
    match escaped? c with
    | none => none
    | some plain => readString (plain :: read) rest
  | c :: rest => if c = '\\' || c.toNat < 0x20 then none else readString (c :: read) rest
  | [] => none

def readExponent (chars : List Char) : Option (Int × List Char) :=
  let (negative, digits) := match chars with
    | '+' :: rest => (false, rest)
    | '-' :: rest => (true, rest)
    | _ => (false, chars)
  let taken := digits.takeWhile Char.isDigit
  if taken.isEmpty then none
  else
    let size : Nat := taken.foldl (fun value c => value * 10 + Number.digitValue c) 0
    some (if negative then -Int.ofNat size else Int.ofNat size, digits.dropWhile Char.isDigit)

/-- A whole number keeps its value while it fits 64 bits; minus zero does not count as whole. -/
def wholeNumber? (negative : Bool) (digits : List Char) : Option Int :=
  let size : Nat := digits.foldl (fun value c => value * 10 + Number.digitValue c) 0
  if negative then
    if 0 < size && size ≤ Nat.pow 2 63 then some (-Int.ofNat size) else none
  else if size < Nat.pow 2 64 then some (Int.ofNat size) else none

def readNumber (negative : Bool) (chars : List Char) : Option (JsonNumber × List Char) :=
  let whole := chars.takeWhile Char.isDigit
  let rest := chars.dropWhile Char.isDigit
  if whole.isEmpty || (whole.head? == some '0' && 1 < whole.length) then none
  else
    let real (fraction : List Char) (exponent : Int) (rest : List Char) :=
      (Number.Literal.ofDigits negative whole fraction exponent).toFloat?.map
        fun value => (JsonNumber.real value, rest)
    let withExponent (fraction rest : List Char) :=
      match rest with
      | 'e' :: rest | 'E' :: rest =>
        (readExponent rest).bind fun (exponent, rest) => real fraction exponent rest
      | _ => real fraction 0 rest
    match rest with
    | '.' :: rest =>
      let fraction := rest.takeWhile Char.isDigit
      if fraction.isEmpty then none else withExponent fraction (rest.dropWhile Char.isDigit)
    | 'e' :: _ | 'E' :: _ => withExponent [] rest
    | _ =>
      match wholeNumber? negative whole with
      | some value => some (.whole value, rest)
      | none => real [] 0 rest

def expect? : List Char → List Char → Option (List Char)
  | [], rest => some rest
  | c :: expected, first :: rest => if c = first then expect? expected rest else none
  | _ :: _, [] => none

mutual

/-- Reads one value.  Every nested call spends one unit of `fuel`; the length of the text is
enough. -/
def readValue : Nat → List Char → Option (Json × List Char)
  | 0, _ => none
  | fuel + 1, chars =>
    match skipSpaces chars with
    | '"' :: rest => (readString [] rest).map fun (text, rest) => (.string text, rest)
    | '[' :: rest =>
      match skipSpaces rest with
      | ']' :: rest => some (.array [], rest)
      | _ => (readItems fuel [] rest).map fun (items, rest) => (.array items, rest)
    | '\x7b' :: rest =>
      match skipSpaces rest with
      | '\x7d' :: rest => some (.object [], rest)
      | _ => (readMembers fuel [] rest).map fun (members, rest) => (.object members, rest)
    | '-' :: rest => (readNumber true rest).map fun (value, rest) => (.number value, rest)
    | 'n' :: rest => (expect? "ull".toList rest).map fun rest => (.null, rest)
    | 't' :: rest => (expect? "rue".toList rest).map fun rest => (.bool true, rest)
    | 'f' :: rest => (expect? "alse".toList rest).map fun rest => (.bool false, rest)
    | chars => (readNumber false chars).map fun (value, rest) => (.number value, rest)

def readItems : Nat → List Json → List Char → Option (List Json × List Char)
  | 0, _, _ => none
  | fuel + 1, read, chars =>
    match readValue fuel chars with
    | none => none
    | some (item, rest) =>
      match skipSpaces rest with
      | ',' :: rest => readItems fuel (item :: read) rest
      | ']' :: rest => some ((item :: read).reverse, rest)
      | _ => none

def readMembers : Nat → List (String × Json) → List Char →
    Option (List (String × Json) × List Char)
  | 0, _, _ => none
  | fuel + 1, read, chars =>
    match skipSpaces chars with
    | '"' :: rest =>
      match readString [] rest with
      | none => none
      | some (name, rest) =>
        match skipSpaces rest with
        | ':' :: rest =>
          match readValue fuel rest with
          | none => none
          | some (value, rest) =>
            match skipSpaces rest with
            | ',' :: rest => readMembers fuel ((name, value) :: read) rest
            | '\x7d' :: rest => some (((name, value) :: read).reverse, rest)
            | _ => none
        | _ => none
    | _ => none

end

def readAnyDepth (text : String) : Option Json :=
  let chars := text.toList
  match readValue (2 * chars.length + 2) chars with
  | some (json, rest) => if (skipSpaces rest).isEmpty then some json else none
  | none => none

def read (text : String) : Option Json :=
  (readAnyDepth text).filter fun json => json.depth ≤ deepest

end CatalogBrowser.Json
