import ProductModel.Association
import ProductModel.Property.Table
import ProductModel.Space
import ProductModel.Types.Rule

/-!
# Instances

An instance has a type, a place in the tree of instances, fields and further attributes, declared
properties, and a place in space.  Property values that no accessor of the type keeps are stored
among the further attributes.
-/

namespace ProductModel

/-- **The stages of an instance's life.**  A handle of an instance that is gone is destroyed. -/
inductive InstanceState where
  | constructed
  | initializing
  | live
  | removing
  | destroyed
  deriving DecidableEq, Repr

namespace InstanceState

/-- All stages. -/
def all : List InstanceState := [constructed, initializing, live, removing, destroyed]

/-- The name of a stage. -/
def label : InstanceState → String
  | constructed => "constructed"
  | initializing => "initializing"
  | live => "live"
  | removing => "removing"
  | destroyed => "destroyed"

/-- The stored name of a stage. -/
def storedName : InstanceState → String
  | constructed => "Constructed"
  | initializing => "Initializing"
  | live => "Live"
  | removing => "Removing"
  | destroyed => "Destroyed"

instance : Exchange InstanceState where
  encode s := .str s.storedName
  decode depth j := do
    let (name, payload) ← Exchange.readVariant depth j
    if Exchange.isBare payload then all.find? (·.storedName == name) else none

end InstanceState

/-- **Whether an instance takes part in cuts**: not at all, as one that is cut, or as one that
cuts. -/
inductive CutMode where
  | off
  | cuttable
  | cutting
  deriving DecidableEq, Repr

namespace CutMode

/-- All modes. -/
def all : List CutMode := [off, cuttable, cutting]

/-- The name of a mode. -/
def label : CutMode → String
  | off => "off"
  | cuttable => "cuttable"
  | cutting => "cutting"

/-- The stored name of a mode. -/
def storedName : CutMode → String
  | off => "Off"
  | cuttable => "Cuttable"
  | cutting => "Cutting"

instance : Exchange CutMode where
  encode m := .str m.storedName
  decode depth j := do
    let (name, payload) ← Exchange.readVariant depth j
    if Exchange.isBare payload then all.find? (·.storedName == name) else none

end CutMode

/-- **How an instance behaves in an editor.** -/
structure InstanceFlags where
  selectable : Bool := true
  /-- whether picking the instance picks its father instead -/
  hierSelectable : Bool := false
  cutMode : CutMode := .off
  collisionDetection : Bool := true
  /-- how finely its geometry is resolved, from zero to one -/
  resolution : Float := 0.1
  deriving Repr, DecidableEq

instance : Exchange InstanceFlags where
  encode f := .record
    [("selectable", Exchange.encode f.selectable),
      ("hier_selectable", Exchange.encode f.hierSelectable),
      ("cut_mode", Exchange.encode f.cutMode),
      ("collision_detection", Exchange.encode f.collisionDetection),
      ("resolution", Exchange.encode f.resolution)]
  decode depth j := do
    let fs ← Exchange.readFields
      ["selectable", "hier_selectable", "cut_mode", "collision_detection", "resolution"] depth j
    return {
      selectable := ← fs.required "selectable"
      hierSelectable := ← fs.required "hier_selectable"
      cutMode := ← fs.required "cut_mode"
      collisionDetection := ← fs.required "collision_detection"
      resolution := ← fs.required "resolution" }

/-- **The geometry attached to an instance**: its box, and code that is told about movements. -/
structure Geometry (β : Type) where
  bounds : Bounds
  observer : Option β := none
  deriving Repr

/-- **An instance.** -/
structure Instance (β : Type) where
  type : TypeId
  father : Option InstanceId
  /-- the children in order of creation -/
  children : List InstanceId := []
  /-- whether the instance is an element of its father -/
  element : Bool := false
  localName : String
  /-- the absolute name, once it was asked for, until a rename changes it -/
  memo : Option String := none
  fields : Association Symbol Value := {}
  /-- attributes that the type does not declare, and property values -/
  dynamic : Association Symbol Value := {}
  properties : PropertyTable := {}
  /-- whether a property value has changed -/
  changed : Bool := false
  flags : InstanceFlags := {}
  /-- the place in the order of creation -/
  order : Nat
  state : InstanceState := .constructed
  /-- the number of rule chains that run on the instance -/
  busy : Nat := 0
  position : Vec3 := .zero
  rotation : Vec3 := .zero
  storable : Bool := false
  /-- the program that was assigned to the instance -/
  program : Option InstanceId := none
  geometry : Option (Geometry β) := none
  deriving Repr

namespace Instance

variable {β : Type}

/-- Whether a rule chain runs on the instance. -/
def isBusy (i : Instance β) : Bool := 0 < i.busy

/-- Sets an attribute: a declared field if there is one, else a further attribute. -/
def setAttribute (i : Instance β) (name : Symbol) (v : Value) : Instance β :=
  if i.fields.contains name then { i with fields := i.fields.insert name v }
  else { i with dynamic := i.dynamic.insert name v }

end Instance

end ProductModel
