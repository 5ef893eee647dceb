/-!
Punycode, the ASCII form of a label with other characters.

The ASCII characters come first.  Then follow, in rising order of their codes, the other characters
as differences in a variable-length notation of base 36, whose digits have thresholds that depend
on a bias.
-/

namespace CatalogBrowser.Url.Punycode

def digit (value : Nat) : Char :=
  if value < 26 then Char.ofNat ('a'.toNat + value) else Char.ofNat ('0'.toNat + (value - 26))

def threshold (place bias : Nat) : Nat :=
  if place ≤ bias then 1 else if bias + 26 ≤ place then 26 else place - bias

theorem threshold_bounds (place bias : Nat) :
    1 ≤ threshold place bias ∧ threshold place bias ≤ 26 := by
  unfold threshold
  split
  · omega
  · split <;> omega

def digits (bias place value : Nat) : List Char :=
  let limit := threshold place bias
  if value < limit then [digit value]
  else digit (limit + (value - limit) % (36 - limit)) ::
    digits bias (place + 36) ((value - limit) / (36 - limit))
termination_by value
decreasing_by
  have bounds := threshold_bounds place bias
  have smaller := Nat.div_le_self (value - threshold place bias) (36 - threshold place bias)
  omega

def shrink (delta steps : Nat) : Nat × Nat :=
  if 455 < delta then shrink (delta / 35) (steps + 36) else (delta, steps)
termination_by delta
decreasing_by omega

def adapt (delta count : Nat) (first : Bool) : Nat :=
  let halved := if first then delta / 700 else delta / 2
  let (delta, steps) := shrink (halved + halved / count) 0
  steps + 36 * delta / (delta + 38)

structure State where
  written : List Char
  delta : Nat := 0
  bias : Nat := 72
  count : Nat
  basic : Nat

def pass (code : Nat) (state : State) (c : Char) : State :=
  if c.toNat < code then { state with delta := state.delta + 1 }
  else if c.toNat = code then
    { state with
      written := state.written ++ digits state.bias 36 state.delta
      delta := 0
      bias := adapt state.delta (state.count + 1) (state.count == state.basic)
      count := state.count + 1 }
  else state

def writeCodes (label : List Char) : Nat → List Nat → State → State
  | _, [], state => state
  | done, code :: rest, state =>
    let state := { state with delta := state.delta + (code - done) * (state.count + 1) }
    let state := label.foldl (pass code) state
    writeCodes label (code + 1) rest { state with delta := state.delta + 1 }

def encode (label : List Char) : List Char :=
  let basic := label.filter fun c => c.toNat < 0x80
  let codes := ((label.map Char.toNat).filter fun code => 0x80 ≤ code).mergeSort.eraseReps
  let start := if basic.isEmpty then [] else basic ++ ['-']
  (writeCodes label 0x80 codes
    { written := start, count := basic.length, basic := basic.length }).written

end CatalogBrowser.Url.Punycode
