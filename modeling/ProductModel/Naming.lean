import ProductModel.Error

/-!
# Local names

A local name starts with a letter and goes on with letters, digits and underscores, all of them
ASCII.  Names of an `e` and digits are kept for elements: users cannot choose them, and
`Naming.nextElementName` generates the first one that is free.
-/

namespace ProductModel.Naming

/-- The ASCII letters. -/
def isLetter (c : Char) : Bool := c.isAlpha

/-- The characters after the first one. -/
def isNameChar (c : Char) : Bool := c.isAlphanum || c == '_'

/-- **Well-formed names.** -/
def isIdentifier (name : String) : Bool :=
  match name.toList with
  | c :: cs => isLetter c && cs.all isNameChar
  | [] => false

/-- **Names kept for elements**: an `e` and at least one digit. -/
def isElementName (name : String) : Bool :=
  match name.toList with
  | 'e' :: digits => !digits.isEmpty && digits.all Char.isDigit
  | _ => false

/-- Checks a name that a user chose. -/
def validate (name : String) : Except CreationError Unit :=
  if !isIdentifier name then .error (.malformedName name)
  else if isElementName name then .error (.reservedName name)
  else .ok ()

/-- The name of the `n`-th element. -/
def elementName (n : Nat) : String := "e" ++ String.ofList (Nat.toDigits 10 n)

/-- The first free element name from the `n`-th on, among at most `limit` names. -/
def firstFree (taken : List String) : Nat → Nat → String
  | 0, n => elementName n
  | limit + 1, n =>
    if taken.contains (elementName n) then firstFree taken limit (n + 1) else elementName n

/-- **The first free element name.**  Among as many names as are taken and one more, one is
free. -/
def nextElementName (taken : List String) : String := firstFree taken taken.length 1

end ProductModel.Naming
