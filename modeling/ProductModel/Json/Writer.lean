import ProductModel.Json

/-!
# Writing JSON

A tree is written compactly, without any blank, or laid out with one member or item a line.  In
both forms a string escapes the quote, the backslash and the control characters and nothing else.
-/

namespace ProductModel.Json

/-- A hexadecimal digit, in lower case. -/
def hexDigit (n : Nat) : Char := (Nat.toDigits 16 n).headD '0'

/-- One character inside a string. -/
def escapeChar (c : Char) : List Char :=
  match c with
  | '"' => ['\\', '"']
  | '\\' => ['\\', '\\']
  | '\x08' => ['\\', 'b']
  | '\x0c' => ['\\', 'f']
  | '\n' => ['\\', 'n']
  | '\r' => ['\\', 'r']
  | '\t' => ['\\', 't']
  | c =>
    if c.toNat < 32 then ['\\', 'u', '0', '0', hexDigit (c.toNat / 16), hexDigit (c.toNat % 16)]
    else [c]

/-- The written form of a text. -/
def quoted (s : String) : List Char := '"' :: s.toList.flatMap escapeChar ++ ['"']

/-- The written form of a string; one without text is written as the empty text. -/
def quoted? (s : Option String) : List Char := quoted (s.getD "")

mutual

/-- **The compact text of a tree.** -/
def compact : Json → List Char
  | null => ['n', 'u', 'l', 'l']
  | bool true => ['t', 'r', 'u', 'e']
  | bool false => ['f', 'a', 'l', 's', 'e']
  | number n => n.text
  | string s => quoted? s
  | array [] => ['[', ']']
  | array (item :: items) => '[' :: compact item ++ compactItems items
  | object [] => ['\x7b', '\x7d']
  | object ((name, value) :: members) =>
    '\x7b' :: quoted? name ++ ':' :: compact value ++ compactMembers members

/-- The items after the first one, up to the end of the array. -/
def compactItems : List Json → List Char
  | [] => [']']
  | item :: items => ',' :: compact item ++ compactItems items

/-- The members after the first one, up to the end of the object. -/
def compactMembers : List (Option String × Json) → List Char
  | [] => ['\x7d']
  | (name, value) :: members =>
    ',' :: quoted? name ++ ':' :: compact value ++ compactMembers members

end

/-- The start of a line at a depth: two blanks a level. -/
def newline (depth : Nat) : List Char := '\n' :: List.replicate (2 * depth) ' '

mutual

/-- **The laid out text of a tree** whose first line stands at the given depth. -/
def pretty (depth : Nat) : Json → List Char
  | array (item :: items) =>
    '[' :: newline (depth + 1) ++ pretty (depth + 1) item ++ prettyItems depth items
  | object ((name, value) :: members) =>
    '\x7b' :: newline (depth + 1) ++ quoted? name ++ ':' :: ' ' :: pretty (depth + 1) value
      ++ prettyMembers depth members
  | null => compact null
  | bool b => compact (bool b)
  | number n => compact (number n)
  | string s => compact (string s)
  | array [] => compact (array [])
  | object [] => compact (object [])

/-- The items after the first one, up to the end of the array. -/
def prettyItems (depth : Nat) : List Json → List Char
  | [] => newline depth ++ [']']
  | item :: items =>
    ',' :: newline (depth + 1) ++ pretty (depth + 1) item ++ prettyItems depth items

/-- The members after the first one, up to the end of the object. -/
def prettyMembers (depth : Nat) : List (Option String × Json) → List Char
  | [] => newline depth ++ ['\x7d']
  | (name, value) :: members =>
    ',' :: newline (depth + 1) ++ quoted? name ++ ':' :: ' ' :: pretty (depth + 1) value
      ++ prettyMembers depth members

end

/-- The compact text of a tree as a string. -/
def toText (j : Json) : String := String.ofList j.compact

/-- The laid out text of a tree as a string. -/
def toPrettyText (j : Json) : String := String.ofList (j.pretty 0)

end ProductModel.Json
