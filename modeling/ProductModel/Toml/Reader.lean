import ProductModel.Json.Reader
import ProductModel.Toml
import ProductModel.Toml.Scalar

/-!
# Reading TOML

A text is read into statements, one a line.  Every function takes what it reads off the front of
a text and returns the rest.
-/

namespace ProductModel.Toml

/-- Blanks within a line. -/
def isBlank (c : Char) : Bool := c == ' ' || c == '\t'

/-- A text without the blanks at its front. -/
def skipBlanks (cs : List Char) : List Char := cs.dropWhile isBlank

/-- Characters that may stand in a comment or a string: no control characters but the tab. -/
def isPlain (c : Char) : Bool := c == '\t' || (32 ≤ c.toNat && c.toNat != 127)

/-- Drops a line break, if one stands next. -/
def dropBreak : List Char → List Char
  | '\n' :: cs => cs
  | '\r' :: '\n' :: cs => cs
  | cs => cs

mutual

/-- Drops blanks, line breaks and comments. -/
def skipFiller : List Char → Option (List Char)
  | ' ' :: cs => skipFiller cs
  | '\t' :: cs => skipFiller cs
  | '\n' :: cs => skipFiller cs
  | '\r' :: '\n' :: cs => skipFiller cs
  | '#' :: cs => skipComment cs
  | cs => some cs

/-- Drops the rest of a comment and the filler behind it. -/
def skipComment : List Char → Option (List Char)
  | [] => some []
  | '\n' :: cs => skipFiller cs
  | '\r' :: '\n' :: cs => skipFiller cs
  | c :: cs => if isPlain c then skipComment cs else none

end

/-- Drops the end of a line: blanks, a comment, and a break or the end of the text. -/
def endLine (cs : List Char) : Option (List Char) :=
  match skipBlanks cs with
  | [] => some []
  | '\n' :: rest => some rest
  | '\r' :: '\n' :: rest => some rest
  | '#' :: rest =>
    match rest.dropWhile isPlain with
    | [] => some []
    | '\n' :: rest => some rest
    | '\r' :: '\n' :: rest => some rest
    | _ => none
  | _ => none

/-- The character that a code point denotes. -/
def charOf? (n : Nat) : Option Char :=
  if n < 0xD800 ∨ (0xE000 ≤ n ∧ n < 0x110000) then some (Char.ofNat n) else none

/-- The character that a one-letter escape stands for. -/
def simpleEscape? : Char → Option Char
  | '"' => some '"'
  | '\\' => some '\\'
  | 'b' => some '\x08'
  | 'f' => some '\x0c'
  | 'n' => some '\n'
  | 'r' => some '\r'
  | 't' => some '\t'
  | _ => none

/-- Takes an escape off a text that stands behind the backslash. -/
def readEscape : List Char → Option (Char × List Char)
  | 'u' :: a :: b :: c :: d :: rest => do
    return (← charOf? (← Json.hexQuad? a b c d), rest)
  | 'U' :: a :: b :: c :: d :: e :: f :: g :: h :: rest => do
    return (← charOf? ((← Json.hexQuad? a b c d) * 0x10000 + (← Json.hexQuad? e f g h)), rest)
  | c :: rest => do return (← simpleEscape? c, rest)
  | [] => none

/-- Takes a string of one line with escapes off a text, up to and with the closing quote. -/
def readBasic : Nat → List Char → Option (List Char × List Char)
  | 0, _ => none
  | limit + 1, cs =>
    match cs with
    | '"' :: rest => some ([], rest)
    | '\\' :: rest => do
      let (c, rest) ← readEscape rest
      let (text, rest) ← readBasic limit rest
      return (c :: text, rest)
    | c :: rest =>
      if isPlain c then do
        let (text, rest) ← readBasic limit rest
        return (c :: text, rest)
      else none
    | [] => none

/-- Takes a string of one line without escapes off a text, up to and with the closing quote. -/
def readLiteral (cs : List Char) : Option (List Char × List Char) :=
  match cs.dropWhile (fun c => isPlain c && c != '\x27') with
  | '\x27' :: rest => some (cs.takeWhile (fun c => isPlain c && c != '\x27'), rest)
  | _ => none

/-- Blanks and line breaks. -/
def skipBreaks : List Char → List Char
  | '\r' :: '\n' :: cs => skipBreaks cs
  | c :: cs => if isBlank c || c == '\n' then skipBreaks cs else c :: cs
  | [] => []

/-- Whether a line break stands behind the blanks at the front of a text. -/
def breakFollows (cs : List Char) : Bool :=
  match skipBlanks cs with
  | '\n' :: _ => true
  | '\r' :: '\n' :: _ => true
  | _ => false

/-- The quotes at the front of a text. -/
def quoteRun (quote : Char) (cs : List Char) : Nat := (cs.takeWhile (· == quote)).length

/-- Takes a string of several lines off a text, up to and with the three closing quotes.  Up to
two quotes may stand right before them.  With escapes, a backslash at the end of a line drops all
blanks and breaks that follow. -/
def readLines (quote : Char) (escapes : Bool) : Nat → List Char → Option (List Char × List Char)
  | 0, _ => none
  | limit + 1, cs =>
    let run := quoteRun quote cs
    if 3 ≤ run then
      let extra := min (run - 3) 2
      some (List.replicate extra quote, cs.drop (extra + 3))
    else
      match cs with
      | '\\' :: rest =>
        if !escapes then do
          let (text, rest) ← readLines quote escapes limit rest
          return ('\\' :: text, rest)
        else if breakFollows rest then readLines quote escapes limit (skipBreaks rest)
        else do
          let (c, rest) ← readEscape rest
          let (text, rest) ← readLines quote escapes limit rest
          return (c :: text, rest)
      | '\r' :: '\n' :: rest => do
        let (text, rest) ← readLines quote escapes limit rest
        return ('\n' :: text, rest)
      | c :: rest =>
        if isPlain c || c == '\n' then do
          let (text, rest) ← readLines quote escapes limit rest
          return (c :: text, rest)
        else none
      | [] => none

/-- Takes a string off a text that starts with a quote. -/
def readString (cs : List Char) : Option (List Char × List Char) :=
  match cs with
  | '"' :: '"' :: '"' :: rest => readLines '"' true (rest.length + 1) (dropBreak rest)
  | '\x27' :: '\x27' :: '\x27' :: rest => readLines '\x27' false (rest.length + 1) (dropBreak rest)
  | '"' :: rest => readBasic (rest.length + 1) rest
  | '\x27' :: rest => readLiteral rest
  | _ => none

/-- Characters of a bare key. -/
def isKeyChar (c : Char) : Bool := c.isAlphanum || c == '_' || c == '-'

/-- Takes one part of a key off a text. -/
def readPart (cs : List Char) : Option (String × List Char) :=
  match cs with
  | '"' :: rest => (readBasic (rest.length + 1) rest).map fun (s, rest) => (String.ofList s, rest)
  | '\x27' :: rest => (readLiteral rest).map fun (s, rest) => (String.ofList s, rest)
  | cs =>
    let name := cs.takeWhile isKeyChar
    if name.isEmpty then none else some (String.ofList name, cs.dropWhile isKeyChar)

/-- The depth that neither keys nor values may reach. -/
def depthLimit : Nat := 80

/-- The greatest number of parts of a key. -/
def keyLimit : Nat := depthLimit - 1

/-- Takes a dotted key off a text: the parts before the last one, and the last one. -/
def readKey : Nat → List Char → Option (List String × String × List Char)
  | 0, _ => none
  | limit + 1, cs => do
    let (part, rest) ← readPart (skipBlanks cs)
    match skipBlanks rest with
    | '.' :: rest =>
      let (path, key, rest) ← readKey limit rest
      return (part :: path, key, rest)
    | rest => return ([], part, rest)

/-- Characters of numbers, dates and words. -/
def isScalarChar (c : Char) : Bool :=
  c.isAlphanum || c == '+' || c == '-' || c == '_' || c == '.' || c == ':'

/-- Whether a time follows a date behind one blank. -/
def timeFollows (run rest : List Char) : Bool :=
  (Scalar.readDate run == some []) &&
    match rest with
    | ' ' :: a :: b :: ':' :: _ => a.isDigit && b.isDigit
    | _ => false

/-- Takes a number, a date or a word off a text. -/
def readScalar (cs : List Char) : Option (Toml × List Char) :=
  let run := cs.takeWhile isScalarChar
  let rest := cs.dropWhile isScalarChar
  if run == ['t', 'r', 'u', 'e'] then some (.bool true, rest)
  else if run == ['f', 'a', 'l', 's', 'e'] then some (.bool false, rest)
  else if timeFollows run rest then
    let time := (rest.drop 1).takeWhile isScalarChar
    if Scalar.isDateTime (run ++ ' ' :: time) then
      some (.other, (rest.drop 1).dropWhile isScalarChar)
    else none
  else if Scalar.isInteger run || Scalar.isFloat run || Scalar.isDateTime run then
    some (.other, rest)
  else none

mutual

/-- Takes a value off a text.  `depth` levels of nesting are left. -/
def readValue : Nat → Nat → List Char → Option (Toml × List Char)
  | 0, _, _ => none
  | limit + 1, depth, cs =>
    match cs with
    | '"' :: _ => (readString cs).map fun (s, rest) => (.string (String.ofList s), rest)
    | '\x27' :: _ => (readString cs).map fun (s, rest) => (.string (String.ofList s), rest)
    | '[' :: rest =>
      if depth = 0 then none
      else (readItems limit (depth - 1) rest).map (.other, ·)
    | '\x7b' :: rest =>
      if depth = 0 then none
      else
        match skipBlanks rest with
        | '\x7d' :: rest => some (.other, rest)
        | rest => do
          let (statements, rest) ← readPairs limit (depth - 1) rest
          let _ ← ofStatements? statements
          return (.other, rest)
    | cs => readScalar cs

/-- Drops the items of an array, up to and with its end. -/
def readItems : Nat → Nat → List Char → Option (List Char)
  | 0, _, _ => none
  | limit + 1, depth, cs => do
    match ← skipFiller cs with
    | ']' :: rest => return rest
    | cs =>
      let (_, rest) ← readValue limit depth cs
      match ← skipFiller rest with
      | ',' :: rest => readItems limit depth rest
      | ']' :: rest => return rest
      | _ => none

/-- Takes the assignments of an inline table off a text, up to and with its end. -/
def readPairs : Nat → Nat → List Char → Option (List TomlStatement × List Char)
  | 0, _, _ => none
  | limit + 1, depth, cs => do
    let (path, key, rest) ← readKey keyLimit cs
    match rest with
    | '=' :: rest =>
      let (value, rest) ← readValue limit depth (skipBlanks rest)
      match skipBlanks rest with
      | ',' :: rest =>
        let (statements, rest) ← readPairs limit depth rest
        return (.assign path key value :: statements, rest)
      | '\x7d' :: rest => return ([.assign path key value], rest)
      | _ => none
    | _ => none

end

/-- Takes a statement off a text that starts with one. -/
def readStatement (cs : List Char) : Option (TomlStatement × List Char) :=
  match cs with
  | '[' :: '[' :: rest => do
    let (path, key, rest) ← readKey keyLimit rest
    match rest with
    | ']' :: ']' :: rest => return (.element path key, rest)
    | _ => none
  | '[' :: rest => do
    let (path, key, rest) ← readKey keyLimit rest
    match rest with
    | ']' :: rest => return (.header path key, rest)
    | _ => none
  | cs => do
    let (path, key, rest) ← readKey keyLimit cs
    match rest with
    | '=' :: rest =>
      let (value, rest) ← readValue (rest.length + 1) (depthLimit - 1) (skipBlanks rest)
      return (.assign path key value, rest)
    | _ => none

/-- The statements of a text. -/
def readStatements : Nat → List Char → Option (List TomlStatement)
  | 0, _ => none
  | limit + 1, cs => do
    match ← skipFiller cs with
    | [] => return []
    | cs =>
      let (statement, rest) ← readStatement cs
      let rest ← endLine rest
      return statement :: (← readStatements limit rest)

/-- A text without the mark that may open it. -/
def dropMark : List Char → List Char
  | '\ufeff' :: cs => cs
  | cs => cs

/-- **The entries that a document describes.** -/
def ofText? (s : String) : Option Entries := do
  let cs := dropMark s.toList
  ofStatements? (← readStatements (cs.length + 1) cs)

end ProductModel.Toml
