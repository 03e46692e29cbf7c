import ProductModel.Decimal.Digits

/-!
# Numerals

A `Numeral` is a number as it stands in a text: a sign, the digits before and after the point,
and a power of ten.  It keeps what a value would lose, so a reader can tell an integer from a
float and decide for itself what is out of range.

* `Numeral.nearest` is the float nearest to the number.
* `Numeral.scaled` is the quicker reading of exchanged texts: as many digits as fit a word, scaled
  by powers of ten in float arithmetic.  It refuses a number that overflows.
* `Numeral.read` takes a numeral off the front of a text.
-/

namespace ProductModel.Decimal

/-- The decimal digits of a natural number. -/
def digitChars (n : Nat) : List Char := Nat.toDigits 10 n

/-- **A number as written.** -/
structure Numeral where
  negative : Bool
  /-- the digits before the point -/
  whole : List Char
  /-- the digits after the point, if a point is written -/
  fraction : Option (List Char) := none
  /-- the power of ten, if one is written: whether it is negative, and its digits -/
  power : Option (Bool × List Char) := none
  deriving DecidableEq, Repr

/-- The value of one decimal digit. -/
def digitValue (c : Char) : Nat := c.toNat - '0'.toNat

/-- The number that a sequence of digits denotes. -/
def ofDigits (cs : List Char) : Nat := cs.foldl (fun n c => 10 * n + digitValue c) 0

namespace Numeral

/-- A numeral is integral when it has neither a point nor a power of ten. -/
def isIntegral (n : Numeral) : Bool := n.fraction.isNone && n.power.isNone

/-- The integer that an integral numeral denotes.  A negative zero is not an integer. -/
def toInt? (n : Numeral) : Option Int :=
  if n.isIntegral then
    let magnitude := ofDigits n.whole
    if n.negative then if magnitude = 0 then none else some (-(magnitude : Int))
    else some magnitude
  else none

/-- The written power of ten. -/
def exponent (n : Numeral) : Int :=
  match n.power with
  | none => 0
  | some (negative, digits) => if negative then -(ofDigits digits : Int) else ofDigits digits

/-- The text of a numeral. -/
def text (n : Numeral) : List Char :=
  (if n.negative then ['-'] else []) ++ n.whole
    ++ (match n.fraction with | none => [] | some ds => '.' :: ds)
    ++ (match n.power with
        | none => []
        | some (negative, ds) => 'e' :: (if negative then '-' else '+') :: ds)

/-- **The float nearest to a numeral**; ties go to even mantissas and numbers out of range to
the infinities. -/
def nearest (n : Numeral) : Float :=
  let fraction := n.fraction.getD []
  let digits := ofDigits (n.whole ++ fraction)
  let exponent := n.exponent - fraction.length
  let leading := exponent + digitCount digits
  let magnitude :=
    if digits = 0 ∨ leading < -400 then 0.0
    else if 400 < leading then 1.0 / 0.0
    else Float.ofScientific digits (exponent < 0) exponent.natAbs
  if n.negative then -magnitude else magnitude

/-- The greatest significand that is kept while reading. -/
def wordMax : Nat := UInt64.size - 1

/-- Reads the digits before the point into a word.  From the first digit on that does not fit,
the digits only count for the exponent. -/
def takeWhole : List Char → Nat → Nat × Nat
  | [], significand => (significand, 0)
  | c :: cs, significand =>
    let next := 10 * significand + digitValue c
    if next ≤ wordMax then takeWhole cs next else (significand, cs.length + 1)

/-- Reads the digits after the point into a word, and the number of digits read.  From the first
digit on that does not fit, the digits are dropped. -/
def takeFraction : List Char → Nat → Nat × Nat
  | [], significand => (significand, 0)
  | c :: cs, significand =>
    let next := 10 * significand + digitValue c
    if next ≤ wordMax then
      let (result, count) := takeFraction cs next
      (result, count + 1)
    else (significand, 0)

/-- A power of ten as a float; exact up to the twenty-second. -/
def powerOfTen (n : Nat) : Float := Float.ofScientific 1 false n

/-- The greatest power of ten that a float can hold. -/
def greatestPower : Nat := 308

/-- Divides by `10 ^ n` in steps that a float can hold; once the value is zero it stays so. -/
def divideByPower : Nat → Float → Nat → Float
  | 0, x, _ => x
  | steps + 1, x, n =>
    if n ≤ greatestPower then x / powerOfTen n
    else if x == 0.0 then x
    else divideByPower steps (x / powerOfTen greatestPower) (n - greatestPower)

/-- **The float that an exchanged number denotes**, or `none` when it overflows. -/
def scaled (n : Numeral) : Option Float :=
  let (whole, dropped) := takeWhole n.whole 0
  let (significand, taken) := takeFraction (n.fraction.getD []) whole
  let exponent := n.exponent + dropped - taken
  let x := Float.ofNat significand
  let magnitude :=
    if 0 ≤ exponent then
      if x == 0.0 then some x
      else if greatestPower < exponent then none
      else
        let y := x * powerOfTen exponent.toNat
        if Binary.isFinite y then some y else none
    -- four steps bring every word below the least float
    else some (divideByPower 4 x (min exponent.natAbs 1200))
  magnitude.map fun y => if n.negative then -y else y

/-- Splits the leading digits off a text. -/
def spanDigits (cs : List Char) : List Char × List Char :=
  (cs.takeWhile Char.isDigit, cs.dropWhile Char.isDigit)

/-- Takes a point and at least one digit off a text that starts with a point. -/
def readFraction : List Char → Option (Option (List Char) × List Char)
  | '.' :: cs =>
    let (digits, rest) := spanDigits cs
    if digits.isEmpty then none else some (some digits, rest)
  | cs => some (none, cs)

/-- Takes the sign of a power of ten off a text. -/
def readSign : List Char → Bool × List Char
  | '-' :: cs => (true, cs)
  | '+' :: cs => (false, cs)
  | cs => (false, cs)

/-- Takes a power of ten with at least one digit off a text that starts with its mark. -/
def readPower : List Char → Option (Option (Bool × List Char) × List Char)
  | c :: cs =>
    if c = 'e' ∨ c = 'E' then
      let (negative, cs) := readSign cs
      let (digits, rest) := spanDigits cs
      if digits.isEmpty then none else some (some (negative, digits), rest)
    else some (none, c :: cs)
  | [] => some (none, [])

/-- The digits before the point: a single zero, or digits that start with another one. -/
def readWhole (cs : List Char) : Option (List Char × List Char) :=
  let (digits, rest) := spanDigits cs
  match digits with
  | [] => none
  | '0' :: _ :: _ => none
  | _ => some (digits, rest)

/-- **Takes a numeral off the front of a text.**  A point and a power mark need digits after
them, and the digits before the point have no leading zero. -/
def read (cs : List Char) : Option (Numeral × List Char) := do
  let (negative, cs) := match cs with
    | '-' :: rest => (true, rest)
    | cs => (false, cs)
  let (whole, cs) ← readWhole cs
  let (fraction, cs) ← readFraction cs
  let (power, cs) ← readPower cs
  return (⟨negative, whole, fraction, power⟩, cs)

/-- The numeral of an integer. -/
def ofInt (n : Int) : Numeral := { negative := n < 0, whole := digitChars n.natAbs }

end Numeral

end ProductModel.Decimal
