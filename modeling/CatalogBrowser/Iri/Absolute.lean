import CatalogBrowser.Iri.Basic

/-!
Absolute IRIs as RFC 3987 defines them: a scheme, a colon, and then an optional authority, a path,
an optional query and an optional fragment.
-/

namespace CatalogBrowser.Iri

def isHexDigit (c : Char) : Bool :=
  c.isDigit || ('a' ≤ c && c ≤ 'f') || ('A' ≤ c && c ≤ 'F')

def isUcsChar (c : Char) : Bool :=
  let code := c.toNat
  (0xA0 ≤ code && code ≤ 0xD7FF) || (0xF900 ≤ code && code ≤ 0xFDCF) ||
    (0xFDF0 ≤ code && code ≤ 0xFFEF) ||
    (0x10000 ≤ code && code ≤ 0xDFFFD && code % 0x10000 ≤ 0xFFFD) ||
    (0xE1000 ≤ code && code ≤ 0xEFFFD)

def isPrivateChar (c : Char) : Bool :=
  let code := c.toNat
  (0xE000 ≤ code && code ≤ 0xF8FF) || (0xF0000 ≤ code && code ≤ 0xFFFFD) ||
    (0x100000 ≤ code && code ≤ 0x10FFFD)

def isSubDelimiter (c : Char) : Bool := "!$&'()*+,;=".toList.contains c

def isUnreserved (c : Char) : Bool :=
  c.isAlphanum || c = '-' || c = '.' || c = '_' || c = '~'

def isPlain (c : Char) : Bool := isUnreserved c || isSubDelimiter c || isUcsChar c

def wellEscaped (allowed : Char → Bool) : List Char → Bool
  | [] => true
  | '%' :: high :: low :: rest => isHexDigit high && isHexDigit low && wellEscaped allowed rest
  | c :: rest => c != '%' && allowed c && wellEscaped allowed rest

def readOctet (chars : List Char) : Option (List Char) :=
  let digits := chars.takeWhile Char.isDigit
  let value := digits.foldl (fun value c => value * 10 + (c.toNat - '0'.toNat)) 0
  if digits.isEmpty || 3 < digits.length || 255 < value ||
      (1 < digits.length && digits.head? == some '0') then none
  else some (chars.dropWhile Char.isDigit)

def readDottedQuad (chars : List Char) : Option (List Char) := do
  let dot : List Char → Option (List Char)
    | '.' :: rest => some rest
    | _ => none
  let first ← readOctet chars
  let second ← (dot first).bind readOctet
  let third ← (dot second).bind readOctet
  (dot third).bind readOctet

def readGroup (chars : List Char) : Option (List Char) :=
  let digits := chars.takeWhile isHexDigit
  if digits.isEmpty || 4 < digits.length then none else some (chars.dropWhile isHexDigit)

/-- Reads up to `slots` groups with colons between them, of which a dotted quad may take the last
two. -/
def readGroups (leading : Bool) : Nat → List Char → Nat × Bool × List Char
  | 0, chars => (0, false, chars)
  | slots + 1, chars =>
    let body? := if leading then some chars else match chars with
      | ':' :: rest => some rest
      | _ => none
    match body? with
    | none => (0, false, chars)
    | some body =>
      match if 0 < slots then readDottedQuad body else none with
      | some rest => (2, true, rest)
      | none =>
        match readGroup body with
        | none => (0, false, chars)
        | some rest =>
          let (used, dotted, rest) := readGroups false slots rest
          (used + 1, dotted, rest)

/-- Eight groups, or fewer with one `::` in place of the missing ones. -/
def isIpv6 (chars : List Char) : Bool :=
  match readGroups true 8 chars with
  | (8, _, rest) => rest.isEmpty
  | (_, true, _) => false
  | (used, false, ':' :: ':' :: rest) => (readGroups true (7 - used) rest).2.2.isEmpty
  | _ => false

def isFutureAddress : List Char → Bool
  | [] => false
  | v :: rest =>
    let version := rest.takeWhile isHexDigit
    (v = 'v' || v = 'V') && !version.isEmpty &&
      match rest.dropWhile isHexDigit with
      | '.' :: address =>
        !address.isEmpty &&
          address.all fun c => isUnreserved c || isSubDelimiter c || c = ':'
      | _ => false

def isPort (chars : List Char) : Bool := chars.all Char.isDigit

def isHostAndPort : List Char → Bool
  | '[' :: rest =>
    let address := rest.takeWhile (· != ']')
    (isIpv6 address || isFutureAddress address) &&
      match rest.dropWhile (· != ']') with
      | [']'] => true
      | ']' :: ':' :: port => isPort port
      | _ => false
  | chars =>
    wellEscaped isPlain (chars.takeWhile (· != ':')) &&
      isPort ((chars.dropWhile (· != ':')).drop 1)

def isAuthority (chars : List Char) : Bool :=
  let user := chars.takeWhile fun c => c != '@' && c != '['
  match chars.dropWhile fun c => c != '@' && c != '[' with
  | '@' :: host => wellEscaped (fun c => isPlain c || c = ':') user && isHostAndPort host
  | _ => isHostAndPort chars

def isPathChar (c : Char) : Bool := isPlain c || c = ':' || c = '@' || c = '/'

def isFragmentChar (c : Char) : Bool := isPathChar c || c = '?'

def isQueryChar (c : Char) : Bool := isFragmentChar c || isPrivateChar c

def isPathAndMore (chars : List Char) : Bool :=
  let path := chars.takeWhile fun c => c != '?' && c != '#'
  wellEscaped isPathChar path &&
    match chars.dropWhile fun c => c != '?' && c != '#' with
    | '?' :: rest =>
      wellEscaped isQueryChar (rest.takeWhile (· != '#')) &&
        wellEscaped isFragmentChar ((rest.dropWhile (· != '#')).drop 1)
    | '#' :: fragment => wellEscaped isFragmentChar fragment
    | _ => true

def isSchemeChar (c : Char) : Bool := c.isAlphanum || c = '+' || c = '-' || c = '.'

def isAbsoluteChars (chars : List Char) : Bool :=
  (match chars with
    | c :: _ => c.isAlpha
    | [] => false) &&
    match chars.dropWhile isSchemeChar with
    | ':' :: '/' :: '/' :: rest =>
      let endsAuthority (c : Char) : Bool := c = '/' || c = '?' || c = '#'
      isAuthority (rest.takeWhile fun c => !endsAuthority c) &&
        isPathAndMore (rest.dropWhile fun c => !endsAuthority c)
    | ':' :: rest => isPathAndMore rest
    | _ => false

def isAbsolute (iri : Iri) : Bool := isAbsoluteChars iri.text.toList

end CatalogBrowser.Iri
