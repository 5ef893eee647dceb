import CatalogBrowser.Url.Host

/-!
URLs in their normal form.

The schemes of the web have special rules: they must have a host, a backslash counts as a slash,
and the standard port is left out.
-/

namespace CatalogBrowser

structure Url where
  scheme : String
  username : String := ""
  password : String := ""
  host : Option String := none
  port : Option Nat := none
  path : String := ""
  /-- The path is no hierarchy, as in `data:x`. -/
  rootless : Bool := false
  query : Option String := none
  fragment : Option String := none
  deriving Repr, DecidableEq

namespace Url

def standardPorts : List (String × Option Nat) :=
  [("http", some 80), ("https", some 443), ("ws", some 80), ("wss", some 443), ("ftp", some 21),
    ("file", none)]

def isSpecialScheme (scheme : String) : Bool := (standardPorts.lookup scheme).isSome

def isSpecial (url : Url) : Bool := isSpecialScheme url.scheme

def authority (url : Url) : String :=
  match url.host with
  | none => ""
  | some host =>
    let user :=
      if url.username.isEmpty && url.password.isEmpty then ""
      else url.username ++ (if url.password.isEmpty then "" else ":" ++ url.password) ++ "@"
    "//" ++ user ++ host ++ match url.port with
      | some port => ":" ++ toString port
      | none => ""

/-- The text of the URL without its fragment, which is never sent. -/
def sentText (url : Url) : String :=
  url.scheme ++ ":" ++ url.authority ++ url.path ++ match url.query with
    | some query => "?" ++ query
    | none => ""

def text (url : Url) : String :=
  url.sentText ++ match url.fragment with
    | some fragment => "#" ++ fragment
    | none => ""

/-! Paths -/

/-- Tabs and line breaks are never part of a URL. -/
def isDropped (c : Char) : Bool := c = '\t' || c = '\n' || c = '\r'

def isSingleDot (segment : List Char) : Bool :=
  [".", "%2e", "%2E"].contains (String.ofList segment)

def isDoubleDot (segment : List Char) : Bool :=
  ["..", ".%2e", ".%2E", "%2e.", "%2E.", "%2e%2e", "%2e%2E", "%2E%2e", "%2E%2E"].contains
    (String.ofList segment)

def upToSlash (path : List Char) : List Char :=
  (path.reverse.dropWhile (· ≠ '/')).reverse

def shorten (path : List Char) : List Char :=
  let front := path.dropLast
  if front.contains '/' then upToSlash front else path

def putSegment (path segment : List Char) : List Char :=
  if isDoubleDot segment then shorten path
  else if isSingleDot segment then path
  else path ++ segment

def putSegments (path : List Char) : List (List Char) → List Char
  | [] => path
  | [segment] => putSegment path segment
  | segment :: rest =>
    let grown := putSegment path segment
    putSegments (if grown.getLast? = some '/' && (isDoubleDot segment || isSingleDot segment) then
      grown else grown ++ ['/']) rest

def normalPath (special : Bool) (chars : List Char) : List Char :=
  let segments := splitAt (fun c => c = '/' || (special && c = '\\')) chars
  let segments := match segments with
    | [] :: rest => rest
    | segments => segments
  putSegments ['/'] (segments.map (encode pathSet))

/-! Reading -/

def cutScheme? (chars : List Char) : Option (List Char × List Char) :=
  let scheme := chars.takeWhile fun c => c.isAlphanum || c = '+' || c = '-' || c = '.'
  match chars.drop scheme.length with
  | ':' :: rest =>
    if (scheme.head?.map Char.isAlpha).getD false then some (scheme.map Char.toLower, rest)
    else none
  | _ => none

def portOf? (scheme : String) (digits : List Char) : Except UrlError (Option Nat) :=
  if digits.isEmpty then .ok none
  else if !digits.all Char.isDigit then .error .invalidPort
  else
    let number := digits.foldl (fun total c => total * 10 + (c.toNat - '0'.toNat)) 0
    if 65535 < number then .error .invalidPort
    else if standardPorts.lookup scheme = some (some number) then .ok none
    else .ok (some number)

def cutPort (inBrackets : Bool) : List Char → List Char × List Char
  | [] => ([], [])
  | c :: rest =>
    if c = ':' && !inBrackets then ([], rest)
    else
      let (host, port) := cutPort ((inBrackets || c = '[') && c ≠ ']') rest
      (c :: host, port)

def cutUser (authority : List Char) : Option (List Char) × List Char :=
  let back := authority.reverse
  let host := (back.takeWhile (· ≠ '@')).reverse
  match back.dropWhile (· ≠ '@') with
  | [] => (none, host)
  | _ :: user => (some user.reverse, host)

def withAuthority (url : Url) (authority : List Char) : Except UrlError Url := do
  let (user?, rest) := cutUser authority
  let user := user?.getD []
  let name := user.takeWhile (· ≠ ':')
  let password := (user.dropWhile (· ≠ ':')).drop 1
  let (hostChars, portChars) := cutPort false rest
  if hostChars.isEmpty && url.isSpecial then throw .emptyHost
  let host ← if url.isSpecial then hostText? hostChars else plainHostText? hostChars
  let port ← portOf? url.scheme portChars
  return { url with
    username := String.ofList (encode userSet name)
    password := String.ofList (encode userSet password)
    host := some host, port }

def withRest (url : Url) (chars : List Char) : Url :=
  let body := chars.takeWhile (· ≠ '#')
  let path := body.takeWhile (· ≠ '?')
  let querySet := if url.isSpecial then specialQuerySet else querySet
  let after (found : List Char) (set : EncodeSet) : Option String :=
    match found with
    | [] => none
    | _ :: rest => some (String.ofList (encode set rest))
  let pathText :=
    if url.rootless then encode controlSet path
    else if path.isEmpty && !url.isSpecial then []
    else normalPath url.isSpecial path
  { url with
    path := String.ofList pathText
    query := after (body.dropWhile (· ≠ '?')) querySet
    fragment := after (chars.dropWhile (· ≠ '#')) fragmentSet }

def endsAuthority (special : Bool) (c : Char) : Bool :=
  c = '/' || c = '?' || c = '#' || (special && c = '\\')

def ofChars (chars : List Char) : Except UrlError Url :=
  match cutScheme? chars with
  | none => .error .relativeWithoutBase
  | some (scheme, rest) =>
    let url : Url := { scheme := String.ofList scheme }
    let read (chars : List Char) : Except UrlError Url :=
      (url.withAuthority (chars.takeWhile fun c => !endsAuthority url.isSpecial c)).map fun url =>
        url.withRest (chars.dropWhile fun c => !endsAuthority url.isSpecial c)
    if url.scheme = "file" then
      .ok (({ url with host := some "" }).withRest (match rest with
        | '/' :: '/' :: path => path
        | path => path))
    else if url.isSpecial then read (rest.dropWhile fun c => c = '/' || c = '\\')
    else
      match rest with
      | '/' :: '/' :: rest => read rest
      | '/' :: _ => .ok (url.withRest rest)
      | _ => .ok (({ url with rootless := true }).withRest rest)

def cleaned (text : String) : List Char :=
  let isOuter (c : Char) : Bool := c.toNat ≤ 0x20
  ((text.toList.dropWhile isOuter).reverse.dropWhile isOuter).reverse.filter fun c => !isDropped c

def ofText (text : String) : Except UrlError Url := ofChars (cleaned text)

/-! Building on a base -/

def dropEmptySegment (path : List Char) : List Char :=
  if 1 < path.length && path.getLast? = some '/' then path.dropLast else path

/-- Appends a segment to a path. Dot segments are left out, or resolved where only dropped
characters hid them. -/
def appendSegment (set : EncodeSet) (path segment : List Char) : List Char :=
  if segment = ['.'] || segment = ['.', '.'] then path
  else
    let started := if path = ['/'] then path else path ++ ['/']
    putSegment started (encode set (segment.filter fun c => !isDropped c))

def withSegments (url : Url) (segments : List String) : Url :=
  let set := if url.isSpecial then specialSegmentSet else segmentSet
  let path := segments.foldl (fun path segment => appendSegment set path segment.toList)
    (dropEmptySegment url.path.toList)
  { url with path := String.ofList path }

def withQueryPair (url : Url) (name value : String) : Url :=
  let pair := String.ofList (encodeForm name.toList ++ ['='] ++ encodeForm value.toList)
  { url with query := some (match url.query with
    | none | some "" => pair
    | some query => query ++ "&" ++ pair) }

end Url

end CatalogBrowser
