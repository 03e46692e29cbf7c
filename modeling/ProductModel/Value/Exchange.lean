import ProductModel.Value
import ProductModel.Json.Exchange

/-!
# Stored values

The stored form of a value: the name of its kind, with the content if there is any.
-/

namespace ProductModel.Value

open Exchange

mutual

/-- The stored form of a value. -/
def encode : Value → Json
  | void => .str "Void"
  | null => .str "Null"
  | bool b => variant "Bool" (Exchange.encode b)
  | int n => variant "Int" (Exchange.encode n)
  | float x => variant "Float" (Exchange.encode x)
  | str s => variant "Str" (Exchange.encode s)
  | symbol s => variant "Symbol" (Exchange.encode s)
  | ref id => variant "Instance" (Exchange.encode id)
  | list items => variant "List" (.array (encodeItems items))

/-- The stored forms of several values. -/
def encodeItems : List Value → List Json
  | [] => []
  | v :: vs => encode v :: encodeItems vs

end

/-- The value of an alternative whose content is not a list of values. -/
def decodeVariant (name : String) (payload : Option (Nat × Json)) : Option Value :=
  match name with
  | "Void" => if isBare payload then some void else none
  | "Null" => if isBare payload then some null else none
  | "Bool" => (content payload).map bool
  | "Int" => (content payload).map int
  | "Float" => (content payload).map float
  | "Str" => (content payload).map str
  | "Symbol" => (content payload).map symbol
  | "Instance" => (content payload).map ref
  | _ => none

mutual

/-- The value that a stored form denotes. -/
def decode : Nat → Json → Option Value
  | depth + 2, .object [(some "List", .array items)] => (decodeItems depth items).map list
  | depth, j =>
    match readVariant depth j with
    | some (name, payload) => decodeVariant name payload
    | none => none

/-- The values that several stored forms denote. -/
def decodeItems (depth : Nat) : List Json → Option (List Value)
  | [] => some []
  | j :: js => do return (← decode depth j) :: (← decodeItems depth js)

end

instance : Exchange Value := ⟨encode, decode⟩

end ProductModel.Value
