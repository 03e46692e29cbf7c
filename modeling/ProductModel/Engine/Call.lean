import ProductModel.Engine.Action

/-!
# Attributes, methods and operators at work

A name on an instance means, in this order: the child of that name, a further attribute, a
declared field, a method of its type.  A method is called with an instance as its receiver, or
through a type without one; a body reaches the method that its own type replaces by a call through
the supertype.
-/

namespace ProductModel

namespace Action

variable {β σ : Type}

/-- **What a name means on an instance.** -/
def resolve (id : InstanceId) (name : Symbol) : Action β σ (Attribute β) := do
  let i ← find id
  match (← model).arena.childNamed id name.label with
  | some child => return .child child
  | none =>
    match i.dynamic.get? name with
    | some v => return .dynamic v
    | none =>
      match i.fields.get? name with
      | some v => return .field v
      | none =>
        match ← findMethod i.type name with
        | some (owner, method) => return .method owner method
        | none => throw (.dispatch (.noSuchAttribute (← describe id) name.label))

/-- **The value of an attribute.** -/
def getAttr (id : InstanceId) (name : Symbol) : Action β σ Value := do
  match (← resolve id name).value? with
  | some v => return v
  | none => throw (.dispatch (.methodAsValue name.label))

/-- **Sets an attribute**: a declared field if there is one, else a further attribute. -/
def setAttr (id : InstanceId) (name : Symbol) (v : Value) : Action β σ Unit :=
  update id (·.setAttribute name v)

/-- The type of a name. -/
def lookupType (name : String) : Action β σ TypeId := ask (·.lookupType name)

/-- Checks the call of a method: the number of arguments, then the receiver. -/
def checkCall (m : Method β) (receiver : Option InstanceId) (args : List Value) :
    Action β σ Unit := do
  match m.arity with
  | some expected =>
    if expected ≠ args.length then
      throw (.dispatch (.arity m.name.label expected args.length))
  | none => pure ()
  if !m.isStatic && receiver.isNone then
    throw (.dispatch (.missingReceiver m.name.label))

/-- The error of calling a name that is no method: a value cannot be called, and what is not there
is not found. -/
def notAMethod {α : Type} (id : InstanceId) (name : Symbol) : Action β σ α := do
  let _ ← resolve id name
  throw (.dispatch (.notCallable name.label))

end Action

namespace Engine

variable {β σ : Type} (e : Engine β σ)

/-- **Calls a method**: checks the call, then runs the body. -/
def invoke (m : Method β) (receiver : Option InstanceId) (args : List Value) :
    Action β σ Value := do
  Action.checkCall m receiver args
  e.run (e.language.method m.body ⟨receiver, args⟩)

/-- Calls a method of an instance. -/
def call (id : InstanceId) (name : Symbol) (args : List Value) : Action β σ Value := do
  let type ← Action.typeOf id
  match ← Action.findMethod type name with
  | some (_, method) => e.invoke method (some id) args
  | none => Action.notAMethod id name

/-- Calls a method through a type, without a receiver. -/
def callStatic (typeName : String) (name : Symbol) (args : List Value) : Action β σ Value := do
  let type ← Action.lookupType typeName
  match ← Action.findMethod type name with
  | some (_, method) => e.invoke method none args
  | none => throw (.dispatch (.noSuchAttribute typeName name.label))

/-- **Calls the method that the supertype of a type provides.** -/
def callSuper (typeName : String) (id : InstanceId) (name : Symbol) (args : List Value) :
    Action β σ Value := do
  let type ← Action.lookupType typeName
  match (← Action.model).types.supertype type with
  | none => throw (.dispatch (.noSuchAttribute s!"super of {typeName}" name.label))
  | some sup =>
    match ← Action.findMethod sup name with
    | some (_, method) => e.invoke method (some id) args
    | none =>
      throw (.dispatch (.noSuchAttribute ((← Action.model).types.name sup) name.label))

/-- Calls the method that the supertype of a type provides, if it provides one. -/
def callSuperIfAny (typeName : String) (id : InstanceId) (name : Symbol) (args : List Value) :
    Action β σ Value := do
  let type ← Action.lookupType typeName
  match (← Action.model).types.supertype type with
  | none => return .void
  | some sup =>
    match ← Action.findMethod sup name with
    | some (_, method) => e.invoke method (some id) args
    | none => return .void

/-- Whether an operator is one of the two equalities and meets a null. -/
def isNullComparison (a : Value) (op : BinaryOp) (b : Value) : Bool :=
  (op == .eq || op == .ne) && (a.isNull || b.isNull)

/-- **Evaluates an operator.**  A null equals nulls alone and is never passed on.  Else an instance
on the left is asked for a method of the operator before the built-in meaning applies. -/
def evalBinary (a : Value) (op : BinaryOp) (b : Value) : Action β σ Value := do
  if isNullComparison a op b then
    let equal := a.isNull && b.isNull
    return .bool (if op = .eq then equal else !equal)
  match a with
  | .ref id =>
    let type ← Action.typeOf id
    match (← Action.model).types.findOperator type op with
    | some method => e.invoke method (some id) [b]
    | none => Action.ofExcept ((applyBinary a op b).mapError .dispatch)
  | _ => Action.ofExcept ((applyBinary a op b).mapError .dispatch)

end Engine

end ProductModel
