import ProductModel.Decimal.Binary

/-!
# The fewest decimal digits that read back

A float is written with the fewest decimal digits for which a reader that rounds to the nearest
float finds the float again; of two such texts the nearer one is taken.  The rule is stated on
the exact value `mantissa * 2 ^ exponent` and on the interval of numbers that round to it, so
everything here is arithmetic of natural numbers.

## Design

* `Rounding` is the interval, in multiples of one power of two.  Its ends belong to it exactly
  when the mantissa is even, because a reader breaks its own ties towards even mantissas.
* `Digits.ofFloat` tries the decimal grids from the coarsest one on.  On each grid only the two
  neighbours of the value can be nearest to it, so only these are tested.
* An exact tie between the two neighbours is the writer's choice, `Tie`.
-/

namespace ProductModel

/-- **A decimal number** `digits * 10 ^ exponent`, without sign. -/
structure Decimal where
  digits : Nat
  exponent : Int
  deriving DecidableEq, Repr

namespace Decimal

/-- Which neighbour wins when a value lies exactly between the two. -/
inductive Tie where
  | up
  | even
  deriving DecidableEq, Repr

/-- Whether `numerator / denominator`, between its floor and the next integer, goes up. -/
def roundsUp (tie : Tie) (numerator denominator : Nat) : Bool :=
  let quotient := numerator / denominator
  let twice := 2 * (numerator % denominator)
  if twice < denominator then false
  else if denominator < twice then true
  else match tie with
    | .up => true
    | .even => quotient % 2 = 1

/-- The integer nearest to `numerator / denominator`. -/
def roundDiv (tie : Tie) (numerator denominator : Nat) : Nat :=
  numerator / denominator + (roundsUp tie numerator denominator).toNat

/-- **The numbers that round to a float**, as multiples of `2 ^ unit`. -/
structure Rounding where
  lower : Nat
  value : Nat
  upper : Nat
  unit : Int
  closed : Bool
  deriving DecidableEq, Repr

/-- The rounding interval of a nonzero finite value.  It reaches half way to both neighbours;
below a power of two the lower neighbour is twice as near. -/
def Rounding.of (b : Binary) : Rounding :=
  let lowerGap := if b.mantissa = 1 <<< 52 ∧ Binary.leastExponent < b.exponent then 1 else 2
  { lower := 4 * b.mantissa - lowerGap
    value := 4 * b.mantissa
    upper := 4 * b.mantissa + 2
    unit := b.exponent - 2
    closed := b.mantissa % 2 = 0 }

/-- The factors that turn a multiple of `2 ^ unit` into a quotient of multiples of
`10 ^ exponent`. -/
def scale (unit exponent : Int) : Nat × Nat :=
  (Nat.pow 10 (-exponent).toNat <<< unit.toNat, Nat.pow 10 exponent.toNat <<< (-unit).toNat)

/-- Whether `digits * 10 ^ exponent` lies in the interval. -/
def Rounding.contains (r : Rounding) (exponent : Int) (digits : Nat) : Bool :=
  let (up, down) := scale r.unit exponent
  let point := digits * down
  if r.closed then r.lower * up ≤ point && point ≤ r.upper * up
  else r.lower * up < point && point < r.upper * up

/-- The point of one decimal grid that is nearest to the value, if one of its two neighbours on
the grid reads back. -/
def Rounding.onGrid (tie : Tie) (r : Rounding) (exponent : Int) : Option Decimal :=
  let (up, down) := scale r.unit exponent
  let below := r.value * up / down
  match r.contains exponent below, r.contains exponent (below + 1) with
  | true, true => some ⟨roundDiv tie (r.value * up) down, exponent⟩
  | true, false => some ⟨below, exponent⟩
  | false, true => some ⟨below + 1, exponent⟩
  | false, false => none

/-- Searches `count` grids from the one of the given exponent down to finer ones. -/
def Rounding.search (tie : Tie) (r : Rounding) : Nat → Int → Option Decimal
  | 0, _ => none
  | count + 1, exponent =>
    match r.onGrid tie exponent with
    | some d => some d
    | none => r.search tie count (exponent - 1)

/-- Removes up to `limit` zeros from the end of the digits, keeping the value. -/
def trimZeros : Nat → Decimal → Decimal
  | 0, d => d
  | limit + 1, d =>
    if d.digits % 10 = 0 ∧ d.digits ≠ 0 then trimZeros limit ⟨d.digits / 10, d.exponent + 1⟩
    else d

/-- The number of decimal digits of a natural number; zero has one. -/
def digitCount (n : Nat) : Nat := (Nat.toDigits 10 n).length

/-- The exponent of the leading decimal digit of a nonzero value. -/
def leadingExponent (b : Binary) : Int :=
  if 0 ≤ b.exponent then (digitCount (b.mantissa <<< b.exponent.toNat) : Int) - 1
  else
    -- m / 2 ^ k = m * 5 ^ k / 10 ^ k
    let k := (-b.exponent).toNat
    (digitCount (b.mantissa * Nat.pow 5 k) : Int) - 1 - k

/-- **The fewest digits that read back** of a finite value.  Seventeen digits always do. -/
def shortest (tie : Tie) (b : Binary) : Decimal :=
  if b.mantissa = 0 then ⟨0, 0⟩
  else
    match (Rounding.of b).search tie 17 (leadingExponent b) with
    | some d => trimZeros (digitCount d.digits) d
    | none => ⟨0, 0⟩

/-- The value rounded to a number of decimal places, in units of the last place. -/
def atPlaces (tie : Tie) (places : Nat) (b : Binary) : Nat :=
  roundDiv tie ((b.mantissa <<< b.exponent.toNat) * Nat.pow 10 places) (1 <<< (-b.exponent).toNat)

end Decimal

end ProductModel
