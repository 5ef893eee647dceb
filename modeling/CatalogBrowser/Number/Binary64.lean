/-!
The value of a double, read off its bits, and its text as a whole number.

`wholeText` writes the whole number nearest to the exact value.  A half goes to the even
neighbour and the sign of a negative value is kept, also in front of `0`.
-/

namespace CatalogBrowser.Number

/-- What a bit pattern stands for: a finite value is `significand * 2 ^ exponent`. -/
inductive Binary64 where
  | nan
  | infinite (negative : Bool)
  | finite (negative : Bool) (significand : Nat) (exponent : Int)
  deriving Repr, DecidableEq

def Binary64.ofBits (bits : UInt64) : Binary64 :=
  let code := bits.toNat
  let negative := code / Nat.pow 2 63 == 1
  let field : Nat := code / Nat.pow 2 52 % 2048
  let fraction : Nat := code % Nat.pow 2 52
  if field == 2047 then
    if fraction == 0 then .infinite negative else .nan
  else if field == 0 then
    .finite negative fraction (-1074)
  else
    .finite negative (fraction + Nat.pow 2 52) (Int.ofNat field - 1075)

/-- The nearest whole number to `numerator / denominator`, a half going to the even neighbour. -/
def nearestWhole (numerator denominator : Nat) : Nat :=
  let quotient := numerator / denominator
  let remainder := numerator % denominator
  if 2 * remainder < denominator then quotient
  else if denominator < 2 * remainder then quotient + 1
  else quotient + quotient % 2

def roundScaled (significand : Nat) (exponent : Int) : Nat :=
  if 0 ≤ exponent then significand * Nat.pow 2 exponent.toNat
  else nearestWhole significand (Nat.pow 2 (-exponent).toNat)

def Binary64.wholeText : Binary64 → String
  | .nan => "NaN"
  | .infinite negative => if negative then "-inf" else "inf"
  | .finite negative significand exponent =>
    (if negative then "-" else "") ++ toString (roundScaled significand exponent)

def wholeText (value : Float) : String :=
  (Binary64.ofBits value.toBits).wholeText

def hexText (bits : UInt64) : String :=
  let digits := Nat.toDigits 16 bits.toNat
  String.ofList (List.replicate (16 - digits.length) '0' ++ digits)

end CatalogBrowser.Number
