/-!
Decimal literals as doubles.

A literal is read as a significand of at most 64 bits and a power of ten.  Digits that no longer
fit the significand are dropped.  The significand is rounded to a double and then scaled once by
a rounded power of ten, so the result is the nearest double whenever the significand is below
`2 ^ 53` and the power is at most `10 ^ 22` either way.
-/

namespace CatalogBrowser.Number

structure Literal where
  negative : Bool
  significand : Nat
  exponent : Int
  deriving Repr, DecidableEq

def significandBound : Nat := Nat.pow 2 64

def largestPower : Nat := 308

def digitValue (c : Char) : Nat := c.toNat - '0'.toNat

/-- Appends digits to a significand while they fit; the result also counts the digits taken and
those left over. -/
def takeDigits (significand taken : Nat) : List Char → Nat × Nat × Nat
  | [] => (significand, taken, 0)
  | c :: rest =>
    let next := significand * 10 + digitValue c
    if next < significandBound then takeDigits next (taken + 1) rest
    else (significand, taken, rest.length + 1)

def Literal.ofDigits (negative : Bool) (whole fraction : List Char) (exponent : Int) : Literal :=
  match takeDigits 0 0 whole with
  | (significand, _, 0) =>
    match takeDigits significand 0 fraction with
    | (significand, taken, _) => ⟨negative, significand, exponent - taken⟩
  | (significand, _, dropped) =>
    match takeDigits significand 0 fraction with
    | (significand, taken, _) => ⟨negative, significand, exponent + dropped - taken⟩

def powerOfTen (exponent : Nat) : Float := Float.ofScientific 1 false exponent

def scaleDown (value : Float) (exponent : Nat) : Float :=
  if largestPower < exponent then
    if value == 0 then value
    else scaleDown (value / powerOfTen largestPower) (exponent - largestPower)
  else value / powerOfTen exponent
termination_by exponent
decreasing_by simp only [largestPower] at *; omega

def Literal.toFloat? (literal : Literal) : Option Float :=
  let value := Float.ofNat literal.significand
  let scaled? :=
    if literal.exponent < 0 then some (scaleDown value (-literal.exponent).toNat)
    else if literal.exponent.toNat ≤ largestPower then
      let scaled := value * powerOfTen literal.exponent.toNat
      if scaled.isInf then none else some scaled
    else if value == 0 then some value
    else none
  scaled?.map fun scaled => if literal.negative then -scaled else scaled

end CatalogBrowser.Number
