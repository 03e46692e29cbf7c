import ProductModel.Decimal.Numeral

/-!
# JSON trees

A tree keeps of a text what a reader of a given type may need: numbers as numerals, members in
their order and with repeated names, and strings whose escapes name no text.
-/

namespace ProductModel

/-- **A JSON tree.** -/
inductive Json where
  | null
  | bool (b : Bool)
  | number (n : Decimal.Numeral)
  /-- a string; `none` if its escapes hold one half of a surrogate pair, so that it has no text -/
  | string (text : Option String)
  | array (items : List Json)
  | object (members : List (Option String × Json))
  deriving Repr, Inhabited

namespace Json

/-- The tree of a text. -/
def str (s : String) : Json := .string (some s)

/-- The tree of an integer. -/
def int (n : Int) : Json := .number (.ofInt n)

/-- The tree of named members. -/
def record (members : List (String × Json)) : Json :=
  .object (members.map fun (name, value) => (some name, value))

end Json

end ProductModel
