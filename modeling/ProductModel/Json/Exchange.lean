import ProductModel.Json.Reader
import ProductModel.Json.Writer
import ProductModel.Decimal.Notation
import ProductModel.Symbol
import ProductModel.Instance.Id

/-!
# Stored forms

A type has a stored form when its values can be written as JSON and read back.  The forms follow
one scheme:

* a record is an object with its fields in order; on reading, unknown fields are ignored, a known
  field may stand only once, and an array of the fields in order is accepted as well;
* an alternative without content is its name, one with content an object of one member; on
  reading, a name may also be written as an object of one null member.

Reading counts the levels of nesting that it enters and refuses what lies too deep; what it
ignores is not counted.
-/

namespace ProductModel

/-- **A type with a stored form.**  Reading is given the levels of nesting that are left. -/
class Exchange (α : Type) where
  encode : α → Json
  decode : Nat → Json → Option α

namespace Exchange

/-- The levels of nesting that a text may have. -/
def depthLimit : Nat := 127

/-- The stored text of a value. -/
def toText {α : Type} [Exchange α] (a : α) : String := (encode a).toText

/-- **The value that a stored text denotes.** -/
def ofText? {α : Type} [Exchange α] (s : String) : Option α :=
  (Json.ofText? s).bind (decode depthLimit)

instance : Exchange Bool where
  encode b := .bool b
  decode _ | .bool b => some b | _ => none

instance : Exchange String where
  encode s := .str s
  decode _ | .string s => s | _ => none

instance : Exchange Symbol where
  encode s := .str s.label
  decode depth j := (decode depth j : Option String).map Symbol.mk

/-- The stored form of a float; what is no number has none and is written as null. -/
def encodeFloat (x : Float) : Json :=
  if x.isNaN || !Binary.isFinite x then .null
  else .number (Decimal.Notation.exchange.ofFinite x)

/-- The float that a number denotes: an integer that fits a word exactly, all else by scaling. -/
def decodeFloat (n : Decimal.Numeral) : Option Float := n.scaled

instance : Exchange Float where
  encode := encodeFloat
  decode _ | .number n => decodeFloat n | _ => none

/-- The integer that a number denotes, if it lies between two bounds. -/
def decodeInt (least greatest : Int) : Json → Option Int
  | .number n =>
    match n.toInt? with
    | some i => if least ≤ i ∧ i ≤ greatest then some i else none
    | none => none
  | _ => none

instance : Exchange Int64 where
  encode n := .int n.toInt
  decode _ j := (decodeInt Int64.minValue.toInt Int64.maxValue.toInt j).map Int64.ofInt

instance : Exchange Int32 where
  encode n := .int n.toInt
  decode _ j := (decodeInt Int32.minValue.toInt Int32.maxValue.toInt j).map Int32.ofInt

instance : Exchange UInt64 where
  encode n := .int n.toNat
  decode _ j := (decodeInt 0 (UInt64.size - 1 : Nat) j).map fun i => UInt64.ofNat i.toNat

instance : Exchange UInt32 where
  encode n := .int n.toNat
  decode _ j := (decodeInt 0 (UInt32.size - 1 : Nat) j).map fun i => UInt32.ofNat i.toNat

instance {α : Type} [Exchange α] : Exchange (Option α) where
  encode
    | none => .null
    | some a => encode a
  decode depth
    | .null => some none
    | j => (decode depth j).map some

/-- The items of an array, one level deeper. -/
def enterArray : Nat → Json → Option (Nat × List Json)
  | depth + 1, .array items => some (depth, items)
  | _, _ => none

/-- The members of an object, one level deeper. -/
def enterObject : Nat → Json → Option (Nat × List (Option String × Json))
  | depth + 1, .object members => some (depth, members)
  | _, _ => none

instance {α : Type} [Exchange α] : Exchange (List α) where
  encode items := .array (items.map encode)
  decode depth j := do
    let (depth, items) ← enterArray depth j
    items.mapM (decode depth)

/-- **The fields of a record as read**: by name, or by position, where only the last ones may be
missing. -/
structure Fields where
  depth : Nat
  byPosition : Bool
  found : List (String × Json)

/-- Collects the known fields among the members of an object.  Every name has to be a text, and a
known one may stand only once. -/
def collectFields (names : List String) :
    List (Option String × Json) → Option (List (String × Json))
  | [] => some []
  | (none, _) :: _ => none
  | (some name, value) :: rest => do
    let found ← collectFields names rest
    if names.contains name then
      if found.any (·.1 == name) then none else some ((name, value) :: found)
    else some found

/-- **Reads a record** with fields of the given names. -/
def readFields (names : List String) (depth : Nat) (j : Json) : Option Fields :=
  match enterObject depth j with
  | some (depth, members) =>
    (collectFields names members).map fun found => ⟨depth, false, found⟩
  | none =>
    match enterArray depth j with
    | some (depth, items) =>
      if items.length ≤ names.length then some ⟨depth, true, names.zip items⟩ else none
    | none => none

namespace Fields

/-- The tree of a field. -/
def find? (fs : Fields) (name : String) : Option Json :=
  (fs.found.find? (·.1 == name)).map (·.2)

/-- A field that has to be there. -/
def required {α : Type} [Exchange α] (fs : Fields) (name : String) : Option α :=
  (fs.find? name).bind (decode fs.depth)

/-- A field that may be left out where fields have names. -/
def optional {α : Type} [Exchange α] (fs : Fields) (name : String) : Option (Option α) :=
  match fs.find? name with
  | some j => decode fs.depth j
  | none => if fs.byPosition then none else some none

/-- A field with a value for the case that it is left out. -/
def withDefault {α : Type} [Exchange α] (fs : Fields) (name : String) (value : α) : Option α :=
  match fs.find? name with
  | some j => decode fs.depth j
  | none => some value

end Fields

/-- **The alternative that a tree names**, and its content one level deeper; the name alone has
none. -/
def readVariant (depth : Nat) (j : Json) : Option (String × Option (Nat × Json)) :=
  match j with
  | .string (some name) => some (name, none)
  | j =>
    match enterObject depth j with
    | some (depth, [(some name, content)]) => some (name, some (depth, content))
    | _ => none

/-- Whether an alternative without content is written properly: as a name, or with null. -/
def isBare : Option (Nat × Json) → Bool
  | none => true
  | some (_, .null) => true
  | some _ => false

/-- The content of an alternative that has one. -/
def content {α : Type} [Exchange α] : Option (Nat × Json) → Option α
  | some (depth, j) => decode depth j
  | none => none

/-- The stored form of an alternative with content. -/
def variant (name : String) (content : Json) : Json := .record [(name, content)]

instance : Exchange InstanceId where
  encode id := .record
    [("index", encode id.slot), ("generation", encode id.generation)]
  decode depth j := do
    let fs ← readFields ["index", "generation"] depth j
    return ⟨← fs.required "index", ← fs.required "generation"⟩

end Exchange

end ProductModel
