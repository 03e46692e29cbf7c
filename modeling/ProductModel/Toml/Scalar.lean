import ProductModel.Decimal.Numeral

/-!
# Scalars of TOML

The forms of numbers, dates and times.  A scalar is read as one run of characters; the functions
here decide whether the run has one of the allowed forms.
-/

namespace ProductModel.Toml.Scalar

open Decimal

/-- Splits a run at its first character that satisfies a test; the character is dropped. -/
def splitAt? (test : Char → Bool) (cs : List Char) : Option (List Char × List Char) :=
  match cs.dropWhile (!test ·) with
  | [] => none
  | _ :: rest => some (cs.takeWhile (!test ·), rest)

/-- Digits with single underscores between them; gives the digits alone. -/
def digits? (isDigit : Char → Bool) : List Char → Option (List Char)
  | [] => none
  | [c] => if isDigit c then some [c] else none
  | c :: '_' :: rest => if isDigit c then (digits? isDigit rest).map (c :: ·) else none
  | c :: rest => if isDigit c then (digits? isDigit rest).map (c :: ·) else none

/-- A run without its sign. -/
def dropSign : List Char → Bool × List Char
  | '-' :: cs => (true, cs)
  | '+' :: cs => (false, cs)
  | cs => (false, cs)

/-- Decimal digits without a leading zero. -/
def whole? (cs : List Char) : Option (List Char) :=
  match digits? Char.isDigit cs with
  | some ('0' :: _ :: _) => none
  | result => result

/-- The value of a digit up to sixteen. -/
def anyDigitValue (c : Char) : Nat :=
  if c.isDigit then c.toNat - '0'.toNat
  else if 'a' ≤ c then c.toNat - 'a'.toNat + 10
  else c.toNat - 'A'.toNat + 10

/-- Whether a run is a number of the given base that a signed word can hold. -/
def isBased (base : Nat) (cs : List Char) : Bool :=
  let isDigit (c : Char) := (c.isDigit || ('a' ≤ c && c ≤ 'f') || ('A' ≤ c && c ≤ 'F'))
    && anyDigitValue c < base
  match digits? isDigit cs with
  | some ds => ds.foldl (fun n c => base * n + anyDigitValue c) 0 < 1 <<< 63
  | none => false

/-- **Integers**: decimal with an optional sign, or of base 16, 8 or 2. -/
def isInteger (cs : List Char) : Bool :=
  match cs with
  | '0' :: 'x' :: rest => isBased 16 rest
  | '0' :: 'o' :: rest => isBased 8 rest
  | '0' :: 'b' :: rest => isBased 2 rest
  | cs =>
    let (negative, cs) := dropSign cs
    match whole? cs with
    | some ds => ofDigits ds < (1 <<< 63) + negative.toNat
    | none => false

/-- The power of a number with a mark, or no power without one. -/
def power? (cs : List Char) : Option (List Char × Option (Bool × List Char)) :=
  match splitAt? (fun c => c == 'e' || c == 'E') cs with
  | none => some (cs, none)
  | some (before, after) =>
    let (negative, after) := dropSign after
    (digits? Char.isDigit after).map fun ds => (before, some (negative, ds))

/-- The numeral of a float: a point or a power has to be there. -/
def numeral? (cs : List Char) : Option Numeral := do
  let (negative, cs) := dropSign cs
  let (cs, power) ← power? cs
  match splitAt? (· == '.') cs with
  | some (before, after) =>
    return ⟨negative, ← whole? before, some (← digits? Char.isDigit after), power⟩
  | none => if power.isSome then return ⟨negative, ← whole? cs, none, power⟩ else none

/-- **Floats**: numerals that do not exceed the floats, and the words for infinity and NaN. -/
def isFloat (cs : List Char) : Bool :=
  let (_, word) := dropSign cs
  if word == ['i', 'n', 'f'] || word == ['n', 'a', 'n'] then true
  else
    match numeral? cs with
    | some n => n.nearest != 1.0 / 0.0
    | none => false

/-- A number of exactly `count` digits, and the rest of the run. -/
def fixedDigits (count : Nat) (cs : List Char) : Option (Nat × List Char) :=
  let ds := cs.take count
  if ds.length = count ∧ ds.all Char.isDigit then some (ofDigits ds, cs.drop count) else none

/-- Drops a character that has to stand next. -/
def expect (c : Char) : List Char → Option (List Char)
  | d :: rest => if d = c then some rest else none
  | [] => none

/-- The number of days of a month. -/
def daysIn (year month : Nat) : Nat :=
  if month = 2 then
    if (year % 4 = 0 ∧ year % 100 ≠ 0) ∨ year % 400 = 0 then 29 else 28
  else if month = 4 ∨ month = 6 ∨ month = 9 ∨ month = 11 then 30
  else 31

/-- Takes a date that the calendar has off a run. -/
def readDate (cs : List Char) : Option (List Char) := do
  let (year, cs) ← fixedDigits 4 cs
  let (month, cs) ← fixedDigits 2 (← expect '-' cs)
  let (day, cs) ← fixedDigits 2 (← expect '-' cs)
  if 1 ≤ month ∧ month ≤ 12 ∧ 1 ≤ day ∧ day ≤ daysIn year month then some cs else none

/-- Takes a time of day off a run; a leap second is allowed. -/
def readTime (cs : List Char) : Option (List Char) := do
  let (hour, cs) ← fixedDigits 2 cs
  let (minute, cs) ← fixedDigits 2 (← expect ':' cs)
  let (second, cs) ← fixedDigits 2 (← expect ':' cs)
  if 23 < hour ∨ 59 < minute ∨ 60 < second then none
  else
    match cs with
    | '.' :: rest =>
      if (rest.takeWhile Char.isDigit).isEmpty then none else some (rest.dropWhile Char.isDigit)
    | cs => some cs

/-- Whether a run is the distance from world time. -/
def isOffset : List Char → Bool
  | ['Z'] | ['z'] => true
  | sign :: rest =>
    if sign == '+' || sign == '-' then
      match fixedDigits 2 rest with
      | some (hours, ':' :: rest) =>
        match fixedDigits 2 rest with
        | some (minutes, []) => hours ≤ 23 && minutes ≤ 59
        | _ => false
      | _ => false
    else false
  | [] => false

/-- **Dates and times**: a date, a time, or both with an optional distance from world time. -/
def isDateTime (cs : List Char) : Bool :=
  match readDate cs with
  | some [] => true
  | some (c :: rest) =>
    if c == 'T' || c == 't' || c == ' ' then
      match readTime rest with
      | some [] => true
      | some rest => isOffset rest
      | none => false
    else false
  | none => readTime cs == some []

end ProductModel.Toml.Scalar
