import CatalogBrowser.Number.Binary64

/-!
The shortest decimal text that reads back as a given double.

`shortestDigits` tries one digit, then two, and so on.  For each count it looks at the two
neighbours of the value on that decimal grid and keeps those inside the interval that rounds to
the value; of two the nearer one wins.
-/

namespace CatalogBrowser.Number

structure Ratio where
  numerator : Nat
  denominator : Nat

def Ratio.lt (left right : Ratio) : Bool :=
  left.numerator * right.denominator < right.numerator * left.denominator

def Ratio.scaled (significand : Nat) (exponent : Int) : Ratio :=
  if 0 ≤ exponent then ⟨significand * Nat.pow 2 exponent.toNat, 1⟩
  else ⟨significand, Nat.pow 2 (-exponent).toNat⟩

def Ratio.decimal (digits : Nat) (power : Int) : Ratio :=
  if 0 ≤ power then ⟨digits * Nat.pow 10 power.toNat, 1⟩
  else ⟨digits, Nat.pow 10 (-power).toNat⟩

/-- The numbers that round to `significand * 2 ^ exponent`; the ends belong to it when the
significand is even. -/
structure RoundingInterval where
  lower : Ratio
  upper : Ratio
  closed : Bool

def RoundingInterval.around (significand : Nat) (exponent : Int) : RoundingInterval where
  lower :=
    if significand == Nat.pow 2 52 && (-1074 : Int) < exponent then
      .scaled (4 * significand - 1) (exponent - 2)
    else .scaled (2 * significand - 1) (exponent - 1)
  upper := .scaled (2 * significand + 1) (exponent - 1)
  closed := significand % 2 == 0

def RoundingInterval.holds (interval : RoundingInterval) (value : Ratio) : Bool :=
  if interval.closed then !value.lt interval.lower && !interval.upper.lt value
  else interval.lower.lt value && value.lt interval.upper

/-- The number of decimal places before the point of a value: `10 ^ (n - 1) ≤ value < 10 ^ n`. -/
def decimalPlaces (value : Ratio) : Int :=
  let guess : Int := (toString value.numerator).length - (toString value.denominator).length
  if value.lt (.decimal 1 guess) then guess else guess + 1

def gridPoint? (value : Ratio) (interval : RoundingInterval) (count : Nat) : Option (Nat × Int) :=
  let power := decimalPlaces value - count
  let unit : Ratio := .decimal 1 power
  let below := value.numerator * unit.denominator / (value.denominator * unit.numerator)
  let keeps (digits : Nat) : Bool := 0 < digits && interval.holds (.decimal digits power)
  match keeps below, keeps (below + 1) with
  | true, true =>
    let middle : Ratio :=
      ⟨(2 * below + 1) * unit.numerator, 2 * unit.denominator⟩
    if value.lt middle then some (below, power)
    else if middle.lt value then some (below + 1, power)
    else some (below + below % 2, power)
  | true, false => some (below, power)
  | false, true => some (below + 1, power)
  | false, false => none

/-- The digits and the power of ten of the shortest decimal; seventeen digits always suffice. -/
def shortestDigits (significand : Nat) (exponent : Int) : Nat × Int :=
  let value := Ratio.scaled significand exponent
  let interval := RoundingInterval.around significand exponent
  ((List.range 17).findSome? fun count => gridPoint? value interval (count + 1)).getD (0, 0)

def stripZeros : Nat → Nat → Int → Nat × Int
  | 0, digits, power => (digits, power)
  | fuel + 1, digits, power =>
    if digits % 10 == 0 && digits != 0 then stripZeros fuel (digits / 10) (power + 1)
    else (digits, power)

/-- Positional notation from `10 ^ -5` up to sixteen places before the point, scientific notation
beyond; a whole number keeps `.0`. -/
def decimalText (digits : Nat) (power : Int) : String :=
  let text := toString digits
  let places : Int := text.length + power
  let zeros (count : Int) : String := String.ofList (List.replicate count.toNat '0')
  if 0 ≤ power && places ≤ 16 then text ++ zeros power ++ ".0"
  else if 0 < places && places ≤ 16 then
    let chars := text.toList
    String.ofList (chars.take places.toNat) ++ "." ++ String.ofList (chars.drop places.toNat)
  else if -5 < places && places ≤ 0 then "0." ++ zeros (-places) ++ text
  else match text.toList with
    | [] => ""
    | first :: rest =>
      String.singleton first ++ (if rest.isEmpty then "" else "." ++ String.ofList rest) ++
        "e" ++ toString (places - 1)

def Binary64.shortestText? : Binary64 → Option String
  | .finite negative significand exponent =>
    let sign := if negative then "-" else ""
    if significand == 0 then some (sign ++ "0.0")
    else
      let (digits, power) := shortestDigits significand exponent
      let (digits, power) := stripZeros 20 digits power
      some (sign ++ decimalText digits power)
  | _ => none

end CatalogBrowser.Number
