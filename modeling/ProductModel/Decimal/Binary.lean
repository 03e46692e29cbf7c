/-!
# The exact value of a float

Every finite float is a sign and a natural number times a power of two.  Texts, remainders
and truncations of this library are computed exactly on that pair; no other module looks at
the bits of a float.

* `Binary.ofFloat` reads the pair off the bits.
* `Binary.toFloat` packs a pair that fits back into a float; for the pairs that this library
  packs (remainders of two floats) the value is exact.
-/

namespace ProductModel

/-- **The exact absolute value of a finite float**: `mantissa * 2 ^ exponent`. -/
structure Binary where
  mantissa : Nat
  exponent : Int
  deriving DecidableEq, Repr

namespace Binary

/-- The exponent of the least positive double. -/
def leastExponent : Int := -1074

/-- The sign bit of a float; set for `-0.0` as well. -/
def isNegative (x : Float) : Bool := decide (1 <<< 63 ≤ x.toBits.toNat)

/-- The eleven exponent bits of a float. -/
def exponentField (x : Float) : Nat := (x.toBits.toNat >>> 52) % (1 <<< 11)

/-- The 52 fraction bits of a float. -/
def fractionField (x : Float) : Nat := x.toBits.toNat % (1 <<< 52)

/-- A float is finite when its exponent field is not the greatest one. -/
def isFinite (x : Float) : Bool := exponentField x != 2047

/-- The absolute value of a finite float.  A zero exponent field stands for a subnormal number,
every other one hides a leading bit. -/
def ofFloat (x : Float) : Binary :=
  if exponentField x = 0 then ⟨fractionField x, leastExponent⟩
  else ⟨(1 <<< 52) + fractionField x, leastExponent + (exponentField x - 1 : Nat)⟩

/-- Halves an even mantissa up to `limit` times, keeping the value. -/
def halve : Nat → Binary → Binary
  | 0, b => b
  | limit + 1, b =>
    if b.mantissa % 2 = 0 ∧ b.mantissa ≠ 0 then
      halve limit ⟨b.mantissa / 2, b.exponent + 1⟩
    else b

/-- The same value written with the given lower exponent. -/
def alignTo (exponent : Int) (b : Binary) : Nat :=
  b.mantissa <<< (b.exponent - exponent).toNat

/-- The float of this sign and value.  The value has to be one that a double can hold; the
mantissa is first brought to 53 bits. -/
def toFloat (negative : Bool) (b : Binary) : Float :=
  let b := halve (b.mantissa.log2 + 1) b
  let sign := if negative then 1 <<< 63 else 0
  if b.mantissa = 0 then Float.ofBits (UInt64.ofNat sign)
  else
    -- place the leading bit at position 52, or the last bit at the least exponent
    let shift := min (52 - b.mantissa.log2) (b.exponent - leastExponent).toNat
    let mantissa := b.mantissa <<< shift
    let exponent := b.exponent - shift
    if mantissa < 1 <<< 52 then Float.ofBits (UInt64.ofNat (sign + mantissa))
    else
      let field := (exponent - leastExponent).toNat + 1
      Float.ofBits (UInt64.ofNat (sign + (field <<< 52) + (mantissa - (1 <<< 52))))

/-- **Remainder with the sign of the dividend**, exact: the dividend less the multiple of the
divisor that lies nearest to it on the side of zero.  There is none for an infinite dividend
or a zero divisor. -/
def remainder (a b : Float) : Float :=
  if !isFinite a || b.isNaN || b == 0.0 then 0.0 / 0.0
  else if !isFinite b then a
  else
    let x := ofFloat a
    let y := ofFloat b
    let unit := min x.exponent y.exponent
    toFloat (isNegative a) ⟨x.alignTo unit % y.alignTo unit, unit⟩

/-- The integer part of a signed value; what lies after the point is dropped. -/
def truncate (negative : Bool) (b : Binary) : Int :=
  let magnitude := (b.mantissa <<< b.exponent.toNat) >>> (-b.exponent).toNat
  if negative then -(magnitude : Int) else magnitude

/-- **The integer part as a word**: a value outside the words gives the nearest word, a NaN
gives zero. -/
def toInt64 (x : Float) : Int64 :=
  if x.isNaN then 0
  else if !isFinite x then
    if isNegative x then Int64.minValue else Int64.maxValue
  else
    let n := (ofFloat x).truncate (isNegative x)
    if n ≤ Int64.minValue.toInt then Int64.minValue
    else if Int64.maxValue.toInt ≤ n then Int64.maxValue
    else Int64.ofInt n

end Binary

end ProductModel
