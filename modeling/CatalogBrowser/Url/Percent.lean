/-!
Percent-encoding: the bytes of a character that may not stand for itself are written as `%` and
two hexadecimal digits.

Which characters are encoded depends on the part of the URL.
-/

namespace CatalogBrowser.Url

abbrev EncodeSet := Char → Bool

def controlSet : EncodeSet := fun c => c.toNat < 0x20 || 0x7E < c.toNat

def fragmentSet : EncodeSet := fun c => controlSet c || " \"<>`".toList.contains c

def querySet : EncodeSet := fun c => controlSet c || " \"#<>".toList.contains c

def specialQuerySet : EncodeSet := fun c => querySet c || c = '\''

def pathSet : EncodeSet := fun c => fragmentSet c || "#?\x7b\x7d".toList.contains c

def userSet : EncodeSet := fun c => pathSet c || "/:;=@[\\]^|".toList.contains c

def segmentSet : EncodeSet := fun c => pathSet c || c = '/' || c = '%'

def specialSegmentSet : EncodeSet := fun c => segmentSet c || c = '\\'

def hexDigit (value : Nat) : Char := (Nat.digitChar value).toUpper

def encodeByte (byte : UInt8) : List Char :=
  ['%', hexDigit (byte.toNat / 16), hexDigit (byte.toNat % 16)]

def encodeChar (set : EncodeSet) (c : Char) : List Char :=
  if set c then (String.utf8EncodeChar c).flatMap encodeByte else [c]

def encode (set : EncodeSet) (chars : List Char) : List Char := chars.flatMap (encodeChar set)

def encodeFormByte (byte : UInt8) : List Char :=
  let c := Char.ofNat byte.toNat
  if byte.toNat < 0x80 && (c.isAlphanum || "*-._".toList.contains c) then [c]
  else if c = ' ' then ['+']
  else encodeByte byte

def encodeForm (chars : List Char) : List Char :=
  (chars.flatMap String.utf8EncodeChar).flatMap encodeFormByte

def hexValue? (c : Char) : Option Nat :=
  if c.isDigit then some (c.toNat - '0'.toNat)
  else if 'a' ≤ c && c ≤ 'f' then some (c.toNat - 'a'.toNat + 10)
  else if 'A' ≤ c && c ≤ 'F' then some (c.toNat - 'A'.toNat + 10)
  else none

/-- The bytes that a text stands for; a `%` without two digits stands for itself. -/
def decode : List Char → List UInt8
  | [] => []
  | '%' :: high :: low :: rest =>
    match hexValue? high, hexValue? low with
    | some upper, some lower => UInt8.ofNat (upper * 16 + lower) :: decode rest
    | _, _ => UInt8.ofNat 0x25 :: decode (high :: low :: rest)
  | c :: rest => String.utf8EncodeChar c ++ decode rest

end CatalogBrowser.Url
