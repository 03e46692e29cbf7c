import ProductModel.ProblemLog
import ProductModel.Program
import ProductModel.Snapshot
import ProductModel.World

/-!
# The operations of a model

Everything that a body or a caller can do to a model is one of these operations.  What it can see
without leaving a trace, it sees by looking at the model; questions that leave a trace, because
they remember a name or count a method lookup, are operations too.
-/

namespace ProductModel

/-- What a name means on an instance. -/
inductive Attribute (β : Type) where
  | child (id : InstanceId)
  | dynamic (v : Value)
  | field (v : Value)
  | method (owner : TypeId) (method : Method β)
  deriving Repr

/-- The value of an attribute; a method is no value. -/
def Attribute.value? {β : Type} : Attribute β → Option Value
  | .child id => some (.ref id)
  | .dynamic v => some v
  | .field v => some v
  | .method _ _ => none

/-- **How an attempt to add an element ended**: refused before it was made, made as an element, or
made and kept as a plain child. -/
inductive ElementOutcome where
  | rejected (rejection : Rejection)
  | accepted (id : InstanceId)
  | demoted (id : InstanceId) (rejection : Rejection)
  deriving DecidableEq, Repr

/-- The instance that was made, be it an element or not. -/
def ElementOutcome.created? : ElementOutcome → Option InstanceId
  | .rejected _ => none
  | .accepted id => some id
  | .demoted id _ => some id

/-- **How an attempt to remove an instance ended.** -/
inductive RemoveOutcome where
  /-- the removed instances, children before their father -/
  | removed (destroyed : List InstanceId)
  | vetoed (rejection : Rejection)
  deriving DecidableEq, Repr

/-- Whether the instance was removed. -/
def RemoveOutcome.isRemoved : RemoveOutcome → Bool
  | .removed _ => true
  | .vetoed _ => false

/-- **Sweeps over a subtree** at the border of storage. -/
inductive Sweep where
  | startDump
  | finishDump
  | startEval
  | finishEval
  deriving DecidableEq, Repr

namespace Sweep

/-- The reason whose rules a sweep runs. -/
def reason : Sweep → Reason
  | startDump => .startDump
  | finishDump => .finishDump
  | startEval => .startEval
  | finishEval => .finishEval

/-- Whether a sweep makes instances storable; the others end that. -/
def enters : Sweep → Bool
  | startDump => true
  | startEval => true
  | finishDump => false
  | finishEval => false

end Sweep

/-- **How a consistency check ended**: the log with the problems it found, and their number or the
error that stopped it. -/
structure CheckResult where
  log : ProblemLog
  found : Except ModelError Nat

/-- **The operations.** -/
inductive Op (β : Type) where
  /- types -/
  | register (d : TypeDef β)
  | redefine (typeName : String) (d : TypeDef β)
  | findMethod (id : TypeId) (name : Symbol)
  /- attributes and methods -/
  | resolve (id : InstanceId) (name : Symbol)
  | getAttr (id : InstanceId) (name : Symbol)
  | setAttr (id : InstanceId) (name : Symbol) (v : Value)
  | call (id : InstanceId) (name : Symbol) (args : List Value)
  | callStatic (typeName : String) (name : Symbol) (args : List Value)
  | callSuper (typeName : String) (id : InstanceId) (name : Symbol) (args : List Value)
  | callSuperIfAny (typeName : String) (id : InstanceId) (name : Symbol) (args : List Value)
  | evalBinary (a : Value) (op : BinaryOp) (b : Value)
  /- the tree -/
  | instantiate (typeName : String) (father : Option InstanceId) (name : String)
      (args : List Value)
  | addElement (father : InstanceId) (typeName : String) (args : List Value)
  | remove (id : InstanceId)
  | rename (id : InstanceId) (name : String)
  | beElement (id : InstanceId)
  | unBeElement (id : InstanceId)
  | absoluteName (id : InstanceId)
  | describe (id : InstanceId)
  | snapshot (id : InstanceId)
  | setChanged (id : InstanceId) (changed : Bool)
  | setFlags (id : InstanceId) (flags : InstanceFlags)
  /- rules -/
  | callRules (id : InstanceId) (reason : Symbol) (phase : Option RuleKind) (arg : Value)
  | sweep (kind : Sweep) (root : InstanceId)
  /- properties -/
  | setupProperty (id : InstanceId) (d : PropertyDef)
  | removeProperty (id : InstanceId) (key : Symbol)
  | setPropertyState (id : InstanceId) (key : Symbol) (state : PropertyState)
  | propertyState (id : InstanceId) (key : Symbol)
  | getProperty (id : InstanceId) (key : Symbol)
  | writeProperty (id : InstanceId) (key : Symbol) (v : Value)
  | setProperty (id : InstanceId) (key : Symbol) (v : Value)
  | choices (id : InstanceId) (key : Symbol)
  | checkConsistency (root : InstanceId) (log : ProblemLog)
  /- geometry and product data -/
  | attachGeometry (id : InstanceId) (geometry : Geometry β)
  | setProductData (id : InstanceId) (data : ProductData β)
  | setProgram (id : InstanceId) (program : InstanceId)
  | setPosition (id : InstanceId) (position : Vec3)
  | translate (id : InstanceId) (delta : Vec3)
  | rotate (id : InstanceId) (axis : Axis) (angle : Float)
  | pick (id : InstanceId)
  /-- the counters of the cache, and the counts of the world -/
  | info

/-- What an operation answers when it succeeds. -/
@[reducible]
def Op.Answer {β : Type} : Op β → Type
  | .register _ | .redefine _ _ => TypeId
  | .findMethod _ _ => FoundMethod β
  | .resolve _ _ => Attribute β
  | .getAttr _ _ => Value
  | .setAttr _ _ _ => Unit
  | .call _ _ _ | .callStatic _ _ _ | .callSuper _ _ _ _ | .callSuperIfAny _ _ _ _ => Value
  | .evalBinary _ _ _ => Value
  | .instantiate _ _ _ _ => InstanceId
  | .addElement _ _ _ => ElementOutcome
  | .remove _ => RemoveOutcome
  | .rename _ _ | .beElement _ | .unBeElement _ => Unit
  | .absoluteName _ | .describe _ => String
  | .snapshot _ => Snapshot
  | .setChanged _ _ | .setFlags _ _ => Unit
  | .callRules _ _ _ _ | .sweep _ _ => ChainOutcome
  | .setupProperty _ _ | .removeProperty _ _ => Bool
  | .setPropertyState _ _ _ => Unit
  | .propertyState _ _ => PropertyState
  | .getProperty _ _ => Value
  | .writeProperty _ _ _ => Unit
  | .setProperty _ _ _ => Bool
  | .choices _ _ => List Value
  | .checkConsistency _ _ => CheckResult
  | .attachGeometry _ _ | .setProductData _ _ | .setProgram _ _ | .setPosition _ _ => Unit
  | .translate _ _ | .rotate _ _ _ => ChainOutcome
  | .pick _ => Option InstanceId
  | .info => WorldInfo

/-- **Operations of a consistency check of a type**: questions that leave a trace, and the report
of a problem. -/
inductive InspectOp where
  | getAttr (id : InstanceId) (name : Symbol)
  | absoluteName (id : InstanceId)
  | report (id : InstanceId) (property : Option Symbol) (message : String)

/-- What an operation of a consistency check answers. -/
@[reducible]
def InspectOp.Answer : InspectOp → Type
  | .getAttr _ _ => Value
  | .absoluteName _ => String
  | .report _ _ _ => Unit

/-- **A body**: a program over the operations of a model. -/
abbrev Body (β σ α : Type) := Program (Op β) Op.Answer (Model β) σ ModelError α

/-- **The body of a consistency check**: it can look and report. -/
abbrev Inspection (β σ α : Type) :=
  Program InspectOp InspectOp.Answer (Model β) σ ModelError α

/-- How a method was called. -/
structure MethodCall where
  receiver : Option InstanceId
  args : List Value
  deriving Repr

/-- How a rule was called. -/
structure RuleCall where
  subject : InstanceId
  reason : Symbol
  arg : Value
  definingType : TypeId
  deriving Repr

/-- **What the code of a programming language does**: the bodies of methods, of rules, of product
data, of consistency checks, and the code that is told about movements.  The initializer of a new
instance is a method like others, and has a body of its own only for languages that tell the two
apart. -/
structure Language (β σ : Type) where
  method : β → MethodCall → Body β σ Value
  initializer : β → MethodCall → Body β σ Value := method
  rule : β → RuleCall → Body β σ Verdict
  evaluate : β → InstanceId → Symbol → Body β σ Unit
  inspect : β → InstanceId → Inspection β σ Unit
  transformed : β → Vec3 → Vec3 → σ → σ

end ProductModel
