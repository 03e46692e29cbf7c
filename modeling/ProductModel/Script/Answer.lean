import ProductModel.Script.Expression
import ProductModel.Showroom

/-!
# Answers of script steps

What a step of a script answers, and the value that stands for the answer when a step binds it to
a variable.
-/

namespace ProductModel.Script

/-- What is shown of a method. -/
structure MethodView where
  name : Symbol
  /-- the qualified name of the type that declares it -/
  owner : String
  arity : Option Nat
  isStatic : Bool
  deriving Repr

/-- What is shown of a type. -/
structure TypeView (β : Type) where
  id : TypeId
  record : RegisteredType β
  supertype : Option String
  lineage : List String
  deriving Repr

/-- What is shown of a registry. -/
structure RegistryView where
  epoch : Nat
  names : List String
  deriving Repr

/-- What is shown of a link of a chain. -/
structure LinkView where
  definingType : String
  reason : Symbol
  kind : RuleKind
  nullary : Bool
  deriving Repr

/-- What a name means on an instance, as it is shown. -/
inductive AttributeView where
  | child (id : InstanceId)
  | dynamic (v : Value)
  | field (v : Value)
  | method (name : Symbol) (owner : String)
  deriving Repr

/-- The value of an attribute; a method has none. -/
def AttributeView.value : AttributeView → Value
  | child id => .ref id
  | dynamic v => v
  | field v => v
  | method _ _ => .void

/-- What is shown of an instance without asking anything of it. -/
structure InstanceView where
  busy : Bool
  cachedName : Option String
  children : List InstanceId
  father : Option InstanceId
  localName : String
  selectable : Bool
  type : TypeId
  deriving Repr

/-- What is shown of an instance with its properties. -/
structure DumpRow where
  id : InstanceId
  name : String
  typeName : String
  state : InstanceState
  order : Nat
  element : Bool
  busy : Bool
  changed : Bool
  storable : Bool
  position : Vec3
  rotation : Vec3
  properties : List (Symbol × Value)
  deriving Repr

/-- What is shown of a log. -/
structure LogView where
  isEmpty : Bool
  size : Nat
  problems : List Problem
  deriving Repr

/-- **What a step answers.** -/
inductive Answer (β : Type) where
  | done
  | value (v : Value)
  | flag (b : Bool)
  | count (n : Nat)
  | text (s : String)
  | optText (s : Option String)
  | type (id : TypeId)
  | typeOf (id : TypeId) (name : String)
  | typeInfo (view : TypeView β)
  | types (view : RegistryView)
  | method (view : Option MethodView)
  | operator (name : Option Symbol)
  | chain (links : List LinkView)
  | lookup (found : Option MethodView) (stats : CacheStats)
  | stats (stats : CacheStats)
  | element (outcome : ElementOutcome)
  | removal (outcome : RemoveOutcome)
  | outcome (outcome : ChainOutcome)
  | state (s : InstanceState)
  | instance? (id : Option InstanceId)
  | instances (ids : List InstanceId)
  | symbols (labels : List Symbol)
  | values (vs : List Value)
  | flags (f : InstanceFlags)
  | snapshot (s : Snapshot) (asText : Bool)
  | info (i : WorldInfo)
  | infoText (i : WorldInfo)
  | instanceView (view : InstanceView)
  | dump (rows : List DumpRow)
  | meaning (view : AttributeView)
  | definition (d : Option PropertyDef)
  | propertyState (s : PropertyState)
  | log (view : LogView)
  | bounds (b : Option Bounds)
  | vector (v : Vec3)
  | place (v : Vec3)
  | room (r : Showroom.Room)

/-- The name of a property state. -/
def stateName : PropertyState → String
  | .enabled => "enabled"
  | .disabled => "disabled"
  | .hidden => "hidden"

/-- **The value that a variable gets for an answer.**  A type, a text that may be absent, and every
view of a part of the model leave it void. -/
def Answer.bound {β : Type} : Answer β → Value
  | value v => v
  | flag b => .bool b
  | count n => .int (Int64.ofNat n)
  | text s => .str s
  | state s => .str s.label
  | propertyState s => .str (stateName s)
  | element o => (o.created?.map Value.ref).getD .void
  | removal o => .bool o.isRemoved
  | outcome o => .bool o.isSuccess
  | instance? id => (id.map Value.ref).getD .void
  | instances ids => .list (ids.map .ref)
  | symbols labels => .list (labels.map .symbol)
  | values vs => .list vs
  | meaning view => view.value
  | _ => .void

end ProductModel.Script
