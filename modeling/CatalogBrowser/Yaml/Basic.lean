import CatalogBrowser.Number.Literal

/-!
YAML values, and what a plain scalar stands for.

A scalar is a text.  Only a plain one, written without quotes, can be read as a truth value or as
a number, and a literal block whose tag says so; any scalar can be read as a text.
-/

namespace CatalogBrowser

namespace Yaml

inductive Style where
  | plain
  | quoted
  | literal
  | folded
  deriving Repr, DecidableEq

end Yaml

inductive Yaml where
  | scalar (style : Yaml.Style) (tag : Option String) (text : String)
  | sequence (items : List Yaml)
  | mapping (entries : List (Yaml × Yaml))

namespace Yaml

def nothing : Yaml := .scalar .plain none ""

def text? : Yaml → Option String
  | .scalar _ _ text => some text
  | .sequence _ | .mapping _ => none

def standardTag (name : String) : String := "tag:yaml.org,2002:" ++ name

def typed? (name : String) : Yaml → Option String
  | .scalar .plain _ text => some text
  | .scalar .literal tag text => if tag = some (standardTag name) then some text else none
  | .scalar .quoted .. | .scalar .folded .. | .sequence _ | .mapping _ => none

def choice? : Yaml → Option String
  | .scalar style tag text =>
    match tag.map String.toList with
    | some ('!' :: name) =>
      if style = .plain && ["", "~", "null", "Null", "NULL"].contains text then
        some (String.ofList name)
      else none
    | _ => some text
  | .sequence _ | .mapping _ => none

def bool? (yaml : Yaml) : Option Bool := do
  let text ← yaml.typed? "bool"
  if ["true", "True", "TRUE"].contains text then some true
  else if ["false", "False", "FALSE"].contains text then some false
  else none

def digitIn? (base : Nat) (c : Char) : Option Nat :=
  let value? :=
    if '0' ≤ c && c ≤ '9' then some (c.toNat - '0'.toNat)
    else if 'a' ≤ c && c ≤ 'z' then some (c.toNat - 'a'.toNat + 10)
    else if 'A' ≤ c && c ≤ 'Z' then some (c.toNat - 'A'.toNat + 10)
    else none
  value?.filter fun value => value < base

def natIn? (base : Nat) (digits : List Char) : Option Nat :=
  if digits.isEmpty then none
  else (digits.mapM (digitIn? base)).map fun values =>
    values.foldl (fun number digit => number * base + digit) 0

/-- Digits with a zero in front are no decimal number. -/
def natOf? : List Char → Option Nat
  | '0' :: 'x' :: digits => natIn? 16 digits
  | '0' :: 'o' :: digits => natIn? 8 digits
  | '0' :: 'b' :: digits => natIn? 2 digits
  | '0' :: _ :: _ => none
  | digits => natIn? 10 digits

def nat? (yaml : Yaml) : Option Nat := do
  let text ← yaml.typed? "int"
  let number ← match text.toList with
    | '+' :: digits => natOf? digits
    | digits => natOf? digits
  if number < Nat.pow 2 64 then some number else none

def decimal? (chars : List Char) : Option (Nat × Int) := do
  let whole := chars.takeWhile Char.isDigit
  let rest := chars.dropWhile Char.isDigit
  let (fraction, rest) := match rest with
    | '.' :: rest => (rest.takeWhile Char.isDigit, rest.dropWhile Char.isDigit)
    | _ => ([], rest)
  let digits ← natIn? 10 (whole ++ fraction)
  let exponent : Int ← match rest with
    | [] => some 0
    | mark :: rest =>
      if mark = 'e' || mark = 'E' then
        match rest with
        | '-' :: power => (natIn? 10 power).map fun size => -Int.ofNat size
        | '+' :: power => (natIn? 10 power).map Int.ofNat
        | power => (natIn? 10 power).map Int.ofNat
      else none
  some (digits, exponent - fraction.length)

def nearest? (digits : Nat) (exponent : Int) : Option Float :=
  let value :=
    if digits = 0 then 0
    else if exponent < -100000 then 0
    else if 100000 < exponent then 1.0 / 0.0
    else if exponent < 0 then Float.ofScientific digits true (-exponent).toNat
    else Float.ofScientific digits false exponent.toNat
  if value.isInf then none else some value

def real? (yaml : Yaml) : Option Float := do
  let text ← yaml.typed? "float"
  let infinity : Float := 1.0 / 0.0
  if [".inf", ".Inf", ".INF", "+.inf", "+.Inf", "+.INF"].contains text then some infinity
  else if ["-.inf", "-.Inf", "-.INF"].contains text then some (-infinity)
  else if [".nan", ".NaN", ".NAN"].contains text then some (0.0 / 0.0)
  else
    let number (chars : List Char) : Option Float :=
      (decimal? chars).bind fun (digits, exponent) => nearest? digits exponent
    match text.toList with
    | '-' :: chars => (number chars).map fun value => -value
    | '+' :: chars => number chars
    | chars => number chars

def keyed? (entry : Yaml × Yaml) : Option (String × Yaml) := entry.1.text?.map (·, entry.2)

/-- The entries of a mapping with known keys, or nothing when a known key is written twice.  Where
nothing is written there are no entries. -/
def record? (names : List String) : Yaml → Option (List (String × Yaml))
  | .scalar .plain _ "" => some []
  | .mapping entries =>
    (entries.mapM keyed?).bind fun named =>
      let known := named.filter fun entry => names.contains entry.1
      if (known.map Prod.fst).Nodup then some known else none
  | .scalar .. | .sequence _ => none

def withDefault? (record : List (String × Yaml)) (name : String) (default : α)
    (decode : Yaml → Option α) : Option α :=
  match record.lookup name with
  | none => some default
  | some value => decode value

end Yaml

end CatalogBrowser
