import ProductModel.Property.Definition

/-!
# Stored property definitions
-/

namespace ProductModel

open Exchange

instance : Exchange PropertyKind where
  encode
    | .bool => .str "Bool"
    | .int => .str "Int"
    | .float => .str "Float"
    | .string => .str "String"
    | .choice values => variant "Choice" (encode values)
    | .choiceFn method => variant "ChoiceFn" (encode method)
    | .editor name => variant "Editor" (encode name)
  decode depth j := do
    let (name, payload) ← readVariant depth j
    match name with
    | "Bool" => if isBare payload then some .bool else none
    | "Int" => if isBare payload then some .int else none
    | "Float" => if isBare payload then some .float else none
    | "String" => if isBare payload then some .string else none
    | "Choice" => (content payload).map .choice
    | "ChoiceFn" => (content payload).map .choiceFn
    | "Editor" => (content payload).map .editor
    | _ => none

instance : Exchange PropertyBounds where
  encode
    | .range min max => variant "Range" (.record [("min", encode min), ("max", encode max)])
    | .length limit => variant "Length" (encode limit)
  decode depth j := do
    let (name, payload) ← readVariant depth j
    match name with
    | "Range" =>
      let (depth, j) ← payload
      let fs ← readFields ["min", "max"] depth j
      return .range (← fs.required "min") (← fs.required "max")
    | "Length" => (content payload).map .length
    | _ => none

instance : Exchange PropertyPosition where
  encode
    | .explicit slot => variant "Explicit" (encode slot)
    | .implicit => .str "Implicit"
  decode depth j := do
    let (name, payload) ← readVariant depth j
    match name with
    | "Explicit" => (content payload).map .explicit
    | "Implicit" => if isBare payload then some .implicit else none
    | _ => none

instance : Exchange PropertyState where
  encode
    | .enabled => .str "Enabled"
    | .disabled => .str "Disabled"
    | .hidden => .str "Hidden"
  decode depth j := do
    let (name, payload) ← readVariant depth j
    if isBare payload then
      match name with
      | "Enabled" => some .enabled
      | "Disabled" => some .disabled
      | "Hidden" => some .hidden
      | _ => none
    else none

instance : Exchange PropertyDef where
  encode d := .record
    [("key", encode d.key), ("name", encode d.name), ("bounds", encode d.bounds),
      ("format", encode d.format), ("kind", encode d.kind), ("position", encode d.position),
      ("state", encode d.state)]
  decode depth j := do
    let fs ← readFields ["key", "name", "bounds", "format", "kind", "position", "state"] depth j
    return {
      key := ← fs.required "key"
      name := ← fs.required "name"
      bounds := ← fs.optional "bounds"
      format := ← fs.optional "format"
      kind := ← fs.required "kind"
      position := ← fs.required "position"
      state := ← fs.required "state" }

end ProductModel
