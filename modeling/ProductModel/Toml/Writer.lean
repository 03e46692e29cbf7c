/-!
# Writing TOML strings

A string has four written forms: on one line or on several, and with escapes between double quotes
or as it is between single quotes.  The form is chosen to need as few escapes as possible.

* One line between double quotes, if nothing in the string needs an escape there.
* Else one line between single quotes, if the string holds none and no break.
* Else several lines between triple double quotes, where single and double ones may stand.
* Else several lines between triple single quotes, where backslashes may stand too.
* Else double quotes with escapes, on several lines if the string has breaks.
-/

namespace ProductModel.Toml

/-- **The written forms of a string.** -/
inductive StringForm where
  | basic
  | literal
  | basicLines
  | literalLines
  deriving DecidableEq, Repr

/-- Control characters other than tabs and breaks; they always need an escape. -/
def isControl (c : Char) : Bool :=
  c != '\t' && c != '\n' && (c.toNat < 32 || c.toNat == 127)

/-- The length of the longest run of a character, where a run of length `run` has begun. -/
def longestRun (mark : Char) : Nat → List Char → Nat
  | run, [] => run
  | run, c :: cs =>
    if c = mark then longestRun mark (run + 1) cs else max run (longestRun mark 0 cs)

/-- The form that a string is written in. -/
def stringForm (cs : List Char) : StringForm :=
  let controls := cs.any isControl
  let breaks := cs.contains '\n'
  let escapes := controls || cs.contains '\\'
  if !escapes && !breaks && !cs.contains '"' then .basic
  else if !controls && !breaks && !cs.contains '\x27' then .literal
  else if !escapes && longestRun '"' 0 cs ≤ 2 then .basicLines
  else if !controls && longestRun '\x27' 0 cs ≤ 2 then .literalLines
  else if breaks then .basicLines
  else .basic

/-- A hexadecimal digit, in upper case. -/
def upperHexDigit (n : Nat) : Char := ((Nat.toDigits 16 n).headD '0').toUpper

/-- A character with an escape if it needs one; breaks may stand in a string of several lines. -/
def escapeChar (lines : Bool) (c : Char) : List Char :=
  match c with
  | '\x08' => ['\\', 'b']
  | '\t' => ['\\', 't']
  | '\n' => if lines then ['\n'] else ['\\', 'n']
  | '\x0c' => ['\\', 'f']
  | '\r' => ['\\', 'r']
  | '\\' => ['\\', '\\']
  | c =>
    if isControl c then
      ['\\', 'u', '0', '0', upperHexDigit (c.toNat / 16), upperHexDigit (c.toNat % 16)]
    else [c]

/-- A string with escapes.  At most `allowed` double quotes may follow one another, of which `run`
have been written. -/
def escaped (lines : Bool) (allowed : Nat) : Nat → List Char → List Char
  | _, [] => []
  | run, c :: cs =>
    if c = '"' then
      if run < allowed then '"' :: escaped lines allowed (run + 1) cs
      else '\\' :: '"' :: escaped lines allowed 0 cs
    else escapeChar lines c ++ escaped lines allowed 0 cs

/-- A break in front of a string of several lines, if it has breaks itself. -/
def openBreak (cs : List Char) : List Char := if cs.contains '\n' then ['\n'] else []

/-- A text between marks. -/
def between (mark body : List Char) : List Char := mark ++ body ++ mark

/-- A string written in a form. -/
def writeForm (cs : List Char) : StringForm → List Char
  | .basic => between ['"'] (escaped false 0 0 cs)
  | .literal => between ['\x27'] cs
  | .basicLines => between ['"', '"', '"'] (openBreak cs ++ escaped true 2 0 cs)
  | .literalLines => between ['\x27', '\x27', '\x27'] (openBreak cs ++ cs)

/-- **The written form of a string.** -/
def writeString (s : String) : String := String.ofList (writeForm s.toList (stringForm s.toList))

/-- The written form of a truth value. -/
def writeBool (b : Bool) : String := if b then "true" else "false"

end ProductModel.Toml
