import CatalogBrowser.Text.LowerCase
import CatalogBrowser.Url.Percent
import CatalogBrowser.Url.Punycode

/-!
Hosts of URLs: domain names, and addresses of version 4 and 6 in their normal form.
-/

namespace CatalogBrowser

inductive UrlError where
  | relativeWithoutBase
  | emptyHost
  | invalidPort
  | invalidDomain
  | invalidDomainCharacter
  | invalidAddress4
  | invalidAddress6
  deriving Repr, DecidableEq

def UrlError.message : UrlError → String
  | .relativeWithoutBase => "relative URL without a base"
  | .emptyHost => "empty host"
  | .invalidPort => "invalid port number"
  | .invalidDomain => "invalid international domain name"
  | .invalidDomainCharacter => "invalid domain character"
  | .invalidAddress4 => "invalid IPv4 address"
  | .invalidAddress6 => "invalid IPv6 address"

namespace Url

def splitAt (isSeparator : Char → Bool) : List Char → List (List Char)
  | [] => [[]]
  | c :: rest =>
    match splitAt isSeparator rest with
    | [] => [[c]]
    | first :: others =>
      if isSeparator c then [] :: first :: others else (c :: first) :: others

/-! Addresses of version 4 -/

def addressPart? (part : List Char) : Option Nat :=
  let number (base : Nat) (digits : List Char) : Option Nat :=
    (digits.mapM fun c => (hexValue? c).filter fun value => value < base).map fun values =>
      values.foldl (fun total digit => total * base + digit) 0
  match part with
  | [] => none
  | '0' :: 'x' :: digits | '0' :: 'X' :: digits => number 16 digits
  | '0' :: first :: digits => number 8 (first :: digits)
  | digits => number 10 digits

def domainParts (domain : List Char) : List (List Char) :=
  let parts := splitAt (· = '.') domain
  if parts.getLast? = some [] && 1 < parts.length then parts.dropLast else parts

def endsInNumber (domain : List Char) : Bool :=
  match (domainParts domain).getLast? with
  | none => false
  | some last => (!last.isEmpty && last.all Char.isDigit) ||
    match last with
    | '0' :: 'x' :: _ | '0' :: 'X' :: _ => (addressPart? last).isSome
    | _ => false

def address4? (domain : List Char) : Option Nat := do
  let parts := domainParts domain
  if 4 < parts.length then none
  else
    let numbers ← parts.mapM addressPart?
    let last ← numbers.getLast?
    let front := numbers.dropLast
    if front.any (255 < ·) || Nat.pow 256 (5 - numbers.length) ≤ last then none
    else
      let places := front.zipIdx.map fun (number, index) => number * Nat.pow 256 (3 - index)
      some (places.foldl (· + ·) last)

def address4Text (address : Nat) : String :=
  String.intercalate "." <| [3, 2, 1, 0].map fun place =>
    toString (address / Nat.pow 256 place % 256)

/-! Addresses of version 6 -/

def group? (chars : List Char) : Option Nat :=
  if chars.isEmpty || 4 < chars.length then none
  else (chars.mapM hexValue?).map fun values =>
    values.foldl (fun total digit => total * 16 + digit) 0

def dotted? (chars : List Char) : Option (List Nat) := do
  let numbers ← (splitAt (· = '.') chars).mapM fun part =>
    if part.isEmpty || 3 < part.length || !part.all Char.isDigit ||
        (part.head? = some '0' && 1 < part.length) then none
    else (addressPart? part).filter (· ≤ 255)
  match numbers with
  | [a, b, c, d] => some [a * 256 + b, c * 256 + d]
  | _ => none

def groups? (chars : List Char) : Option (List Nat) :=
  if chars.isEmpty then some []
  else
    let parts := splitAt (· = ':') chars
    match parts.getLast? with
    | some last =>
      if last.contains '.' then do
        some ((← parts.dropLast.mapM group?) ++ (← dotted? last))
      else parts.mapM group?
    | none => none

def cutAtGap? : List Char → Option (List Char × List Char)
  | ':' :: ':' :: rest => some ([], rest)
  | c :: rest => (cutAtGap? rest).map fun (before, after) => (c :: before, after)
  | [] => none

def address6? (chars : List Char) : Option (List Nat) :=
  match cutAtGap? chars with
  | some (before, after) => do
    if before.contains '.' then none
    else
      let front ← groups? before
      let back ← groups? after
      let missing := 8 - (front.length + back.length)
      if 8 ≤ front.length + back.length then none
      else some (front ++ List.replicate missing 0 ++ back)
  | none => (groups? chars).filter fun groups => groups.length = 8

def zeroRuns : List Nat → List Nat
  | [] => []
  | group :: rest =>
    let runs := zeroRuns rest
    (if group = 0 then runs.head?.getD 0 + 1 else 0) :: runs

def groupText (group : Nat) : String := String.ofList (Nat.toDigits 16 group)

def address6Text (groups : List Nat) : String :=
  let runs := zeroRuns groups
  let longest := runs.foldl max 0
  let join (groups : List Nat) : String := String.intercalate ":" (groups.map groupText)
  if 2 ≤ longest then
    let start := runs.findIdx (· = longest)
    join (groups.take start) ++ "::" ++ join (groups.drop (start + longest))
  else join groups

/-! Domain names -/

def isForbidden (c : Char) : Bool :=
  c.toNat ≤ 0x20 || c.toNat = 0x7F || "#/:<>?@[\\]^|%".toList.contains c

def labelText (label : List Char) : List Char :=
  if label.all fun c => c.toNat < 0x80 then label
  else "xn--".toList ++ Punycode.encode label

def hostText? (host : List Char) : Except UrlError String :=
  match host with
  | '[' :: rest =>
    if rest.getLast? = some ']' then
      match address6? rest.dropLast with
      | some groups => .ok ("[" ++ address6Text groups ++ "]")
      | none => .error .invalidAddress6
    else .error .invalidAddress6
  | _ =>
    match String.fromUTF8? (ByteArray.mk (decode host).toArray) with
    | none => .error .invalidDomain
    | some decoded =>
      let domain := (Text.lowerCase decoded).toList
      let domain := (splitAt (· = '.') domain).map labelText
      let domain := (domain.intersperse ['.']).flatten
      if domain.any isForbidden then .error .invalidDomain
      else if domain.isEmpty then .error .emptyHost
      else if endsInNumber domain then
        match address4? domain with
        | some address => .ok (address4Text address)
        | none => .error .invalidAddress4
      else .ok (String.ofList domain)

def plainHostText? (host : List Char) : Except UrlError String :=
  match host with
  | '[' :: _ => hostText? host
  | _ =>
    if host.any fun c => isForbidden c && c ≠ '%' && 0x20 ≤ c.toNat then
      .error .invalidDomainCharacter
    else .ok (String.ofList (encode controlSet host))

end Url

end CatalogBrowser
