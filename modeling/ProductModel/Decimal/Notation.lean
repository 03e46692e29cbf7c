import ProductModel.Decimal.Numeral

/-!
# Written forms of floats

A float is written from its digits by a `Notation`, a record of the choices that a format makes:
how far the positional form goes, whether an integral value shows a point, and how a tie between
two shortest texts is broken.  The result is a `Numeral`.

* `Notation.plain` is the form of displayed values: always positional, no point without need.
* `Notation.exchange` is the form of stored texts: a point or a power of ten is always there, so
  that a float stays a float.
* `fixed` writes a given number of places, ties going to the even neighbour.
-/

namespace ProductModel.Decimal

/-- Puts the point before the last `places` digits. -/
def splitAtPoint (digits : List Char) (places : Nat) : List Char × List Char :=
  let padded := List.replicate (places + 1 - digits.length) '0' ++ digits
  (padded.take (padded.length - places), padded.drop (padded.length - places))

/-- Positional numeral of a decimal number; an integral one has no point. -/
def Numeral.positional (negative : Bool) (d : Decimal) : Numeral :=
  if d.exponent < 0 then
    let (whole, fraction) := splitAtPoint (digitChars d.digits) (-d.exponent).toNat
    { negative, whole, fraction := some fraction }
  else { negative, whole := digitChars (d.digits * Nat.pow 10 d.exponent.toNat) }

/-- Numeral with one digit before the point and a power of ten. -/
def Numeral.scientific (negative : Bool) (d : Decimal) : Numeral :=
  let digits := digitChars d.digits
  let power := d.exponent + (digits.length - 1 : Nat)
  { negative
    whole := digits.take 1
    fraction := if digits.length ≤ 1 then none else some (digits.drop 1)
    power := some (power < 0, digitChars power.natAbs) }

/-- **The choices of a number format.** -/
structure Notation where
  /-- the exponents of the leading digit that are written positionally; `none` for all -/
  positional : Option (Int × Int)
  /-- whether an integral value in positional form ends in `.0` -/
  keepPoint : Bool
  /-- the winner of a tie between two shortest texts -/
  tie : Tie
  deriving DecidableEq, Repr

/-- Displayed values: `1`, `-0`, `0.1`, `1000000000000000000000`. -/
def Notation.plain : Notation := ⟨none, false, .up⟩

/-- Exchanged values: `1.0`, `-0.0`, `1e+16`, `1.5e-7`; positional from `1e-5` on and below
`1e16`. -/
def Notation.exchange : Notation := ⟨some (-5, 15), true, .even⟩

/-- Whether a decimal number is written positionally. -/
def Notation.isPositional (n : Notation) (d : Decimal) : Bool :=
  let leading := d.exponent + (digitCount d.digits - 1 : Nat)
  d.digits = 0 || match n.positional with
    | none => true
    | some (least, greatest) => least ≤ leading && leading ≤ greatest

/-- The numeral of a decimal number in a notation. -/
def Notation.write (n : Notation) (negative : Bool) (d : Decimal) : Numeral :=
  if n.isPositional d then
    let numeral := Numeral.positional negative d
    if n.keepPoint && numeral.fraction.isNone then { numeral with fraction := some ['0'] }
    else numeral
  else Numeral.scientific negative d

/-- **The numeral of a finite float** in a notation. -/
def Notation.ofFinite (n : Notation) (x : Float) : Numeral :=
  n.write (Binary.isNegative x) (shortest n.tie (Binary.ofFloat x))

/-- **The displayed text of a float.** -/
def display (x : Float) : String :=
  if x.isNaN then "NaN"
  else if !Binary.isFinite x then if Binary.isNegative x then "-inf" else "inf"
  else String.ofList (Notation.plain.ofFinite x).text

/-- **A float with a fixed number of places**, a half going to the even neighbour.  The sign of
a value that rounds to zero is written only if `signedZero` is set. -/
def fixed (places : Nat) (signedZero : Bool) (x : Float) : String :=
  if x.isNaN || !Binary.isFinite x then display x
  else
    let n := atPlaces .even places (Binary.ofFloat x)
    let negative := Binary.isNegative x && (signedZero || n != 0)
    String.ofList (Numeral.positional negative ⟨n, -places⟩).text

/-- The numeral that a text means to a lenient reader: a sign may stand in front, and digits may be
missing on one side of the point. -/
def lenient? (cs : List Char) : Option Numeral :=
  let (negative, cs) := Numeral.readSign cs
  let (whole, cs) := Numeral.spanDigits cs
  let (fraction, cs) := match cs with
    | '.' :: rest => Numeral.spanDigits rest
    | cs => ([], cs)
  if whole.isEmpty && fraction.isEmpty then none
  else
    match Numeral.readPower cs with
    | some (power, []) => some ⟨negative, whole, some fraction, power⟩
    | _ => none

/-- The words for the values that are no numbers, in small letters. -/
def ofWord? (word : String) : Option Float :=
  match word with
  | "nan" => some (0.0 / 0.0)
  | "inf" | "infinity" => some (1.0 / 0.0)
  | _ => none

/-- **The float that a text denotes**: a numeral, or one of the words for the values that are no
numbers, in letters of any case and with a sign if need be. -/
def ofDisplay? (s : String) : Option Float :=
  match lenient? s.toList with
  | some n => some n.nearest
  | none =>
    let (negative, word) := Numeral.readSign s.toList
    (ofWord? (String.ofList (word.map Char.toLower))).map fun x => if negative then -x else x

end ProductModel.Decimal
