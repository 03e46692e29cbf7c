import ProductModel.Value.Exchange

/-!
# Snapshots

A snapshot shows a subtree of instances with the values of their properties.  Properties are
listed by key.
-/

namespace ProductModel

/-- **A view of a subtree.** -/
inductive Snapshot where
  | node (name typeName : String) (element : Bool) (properties : List (String × Value))
      (children : List Snapshot)
  deriving Inhabited

namespace Snapshot

/-- The local name at the top. -/
def name : Snapshot → String
  | node name _ _ _ _ => name

/-- The qualified name of the type at the top. -/
def typeName : Snapshot → String
  | node _ typeName _ _ _ => typeName

/-- Whether the top is an element. -/
def element : Snapshot → Bool
  | node _ _ element _ _ => element

/-- The properties of the top, by key. -/
def properties : Snapshot → List (String × Value)
  | node _ _ _ properties _ => properties

/-- The views of the children. -/
def children : Snapshot → List Snapshot
  | node _ _ _ _ children => children

/-- Sets the value of a key in a list that is ordered by key. -/
def setProperty (key : String) (v : Value) : List (String × Value) → List (String × Value)
  | [] => [(key, v)]
  | (k, w) :: rest =>
    if key = k then (key, v) :: rest
    else if key < k then (key, v) :: (k, w) :: rest
    else (k, w) :: setProperty key v rest

/-- The list of properties in which later values replace earlier ones of the same key. -/
def sortProperties (properties : List (String × Value)) : List (String × Value) :=
  properties.foldl (fun sorted (key, v) => setProperty key v sorted) []

/-- The stored forms of properties. -/
def encodeProperties (properties : List (String × Value)) : List (String × Json) :=
  properties.map fun (key, v) => (key, Exchange.encode v)

mutual

/-- The stored form of a view.  Empty lists of properties and of children are left out. -/
def encode : Snapshot → Json
  | node name typeName element properties children =>
    .record
      ([("name", .str name), ("type", .str typeName), ("element", .bool element)]
        ++ (if properties.isEmpty then []
            else [("properties", .record (encodeProperties properties))])
        ++ (match children with
            | [] => []
            | children => [("children", .array (encodeAll children))]))

/-- The stored forms of several views. -/
def encodeAll : List Snapshot → List Json
  | [] => []
  | s :: rest => encode s :: encodeAll rest

end

/-- The properties that a stored form denotes. -/
def decodeProperties (depth : Nat) (j : Json) : Option (List (String × Value)) := do
  let (depth, members) ← Exchange.enterObject depth j
  let properties ← members.mapM fun (name, value) => do
    return (← name, ← Exchange.decode depth value)
  return sortProperties properties

/-- The names of the fields of a stored view. -/
def fieldNames : List String := ["name", "type", "element", "properties", "children"]

/-- The view that a stored form denotes, `limit` levels deep. -/
def decodeTo : Nat → Nat → Json → Option Snapshot
  | 0, _, _ => none
  | limit + 1, depth, j => do
    let fs ← Exchange.readFields fieldNames depth j
    let properties ← match fs.find? "properties" with
      | some j => decodeProperties fs.depth j
      | none => some []
    let children ← match fs.find? "children" with
      | some j => do
        let (depth, items) ← Exchange.enterArray fs.depth j
        items.mapM (decodeTo limit depth)
      | none => some []
    return .node (← fs.required "name") (← fs.required "type") (← fs.required "element")
      properties children

instance : Exchange Snapshot where
  encode := encode
  -- every level of views takes two levels of nesting
  decode depth j := decodeTo (depth + 1) depth j

mutual

/-- The lines that show a view, two blanks deeper for every level. -/
def lines (depth : Nat) : Snapshot → List String
  | node name typeName element properties children =>
    let indent := String.ofList (List.replicate (2 * depth) ' ')
    (indent ++ name ++ " : " ++ typeName ++ (if element then " [element]" else ""))
      :: properties.map (fun (key, v) => indent ++ "  " ++ key ++ " = " ++ v.text)
      ++ linesOfAll (depth + 1) children

/-- The lines that show several views. -/
def linesOfAll (depth : Nat) : List Snapshot → List String
  | [] => []
  | s :: rest => lines depth s ++ linesOfAll depth rest

end

end Snapshot

end ProductModel
