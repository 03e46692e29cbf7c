import ProductModel.Property.Accessor
import ProductModel.Engine.Call

/-!
# Properties at work

The value of a property is kept by the accessors of its type, if there are any, else among the
attributes of the instance.  Writing a value stores it.  Setting a value follows the full procedure:

1. the value is checked against the definition;
2. it is written, the product data pass the change on, and the method `propsChanged` of the type
   is asked;
3. if it refuses, or the second step fails, all properties are put back as they were and
   `propsChanged` is told.

While a change runs, the keys it writes are recorded.
-/

namespace ProductModel

/-- **The properties of an instance at one moment**: their definitions, and their values in
presentation order. -/
structure PropertyCapture where
  table : PropertyTable
  values : List (Symbol × Value)
  deriving Repr

namespace PropertyCapture

/-- Whether two lists of values are the same. -/
def sameValues : List (Symbol × Value) → List (Symbol × Value) → Bool
  | [], [] => true
  | (k, v) :: as, (l, w) :: bs => k == l && v.same w && sameValues as bs
  | _, _ => false

end PropertyCapture

namespace Action

variable {β σ : Type}

/-- **Declares a property**, or replaces its definition.  Tells whether anything changed. -/
def setupProperty (id : InstanceId) (d : PropertyDef) : Action β σ Bool := do
  ensureNotBusy id "declare a property on"
  let i ← find id
  let (changed, properties) := i.properties.setup d
  update id fun i => { i with properties }
  return changed

/-- **Removes a property** with its stored value.  Tells whether it was declared. -/
def removeProperty (id : InstanceId) (key : Symbol) : Action β σ Bool := do
  ensureNotBusy id "remove a property from"
  let i ← find id
  let (removed, properties) := i.properties.remove key
  if removed.isSome then
    update id fun i => { i with properties, dynamic := i.dynamic.erase key }
  return removed.isSome

/-- The definition of a property that has to be declared. -/
def declaredProperty (id : InstanceId) (key : Symbol) : Action β σ PropertyDef := do
  match (← find id).properties.get? key with
  | some d => return d
  | none => throw (.property (.unknown key.label (← describe id)))

/-- **Changes the state of a property.** -/
def setPropertyState (id : InstanceId) (key : Symbol) (state : PropertyState) :
    Action β σ Unit := do
  let name ← describe id
  let i ← find id
  if !i.properties.contains key then
    throw (.property (.unknown key.label name))
  update id fun i => { i with properties := i.properties.setState key state }

/-- The state of a property. -/
def propertyState (id : InstanceId) (key : Symbol) : Action β σ PropertyState := do
  return (← declaredProperty id key).state

/-- Changes the record of changes. -/
def modifyChanges (f : ChangeHistory → ChangeHistory) : Action β σ Unit :=
  modifyModel fun m => { m with changes := f m.changes }

/-- The keys of the innermost running change. -/
def currentKeys : Action β σ (List Symbol) := do return (← model).changes.current

end Action

namespace Engine

variable {β σ : Type} (e : Engine β σ)

/-- **The value of a property**: from the accessor if the type has one, else as stored.  An
undeclared property has none. -/
def getProperty (id : InstanceId) (key : Symbol) : Action β σ Value := do
  let i ← Action.find id
  if !i.properties.contains key then return .void
  match ← Action.findMethod i.type (Accessor.getter key) with
  | some (_, getter) => e.invoke getter (some id) []
  | none => return ((← Action.find id).dynamic.get? key).getD .void

/-- Hands a value to the accessor that was found, or stores it if there is none. -/
def storeProperty (id : InstanceId) (key : Symbol) (v : Value) : FoundMethod β → Action β σ Unit
  | some (_, setter) => do
    let _ ← e.invoke setter (some id) [v]
  | none => Action.update id fun i => { i with dynamic := i.dynamic.insert key v }

/-- **Writes the value of a property**: through the accessor if the type has one, else as a stored
value.  Nothing is checked. -/
def writeProperty (id : InstanceId) (key : Symbol) (v : Value) : Action β σ Unit := do
  let type ← Action.typeOf id
  Action.modifyChanges (·.record key)
  e.storeProperty id key v (← Action.findMethod type (Accessor.setter key))

/-- **The values that a choice property takes**: listed ones, or those that a method returns. -/
def choices (id : InstanceId) (key : Symbol) : Action β σ (List Value) := do
  let d ← Action.declaredProperty id key
  match d.kind with
  | .choice values => return values
  | .choiceFn method =>
    match ← e.call id method [.symbol key] with
    | .list items => return items
    | .void => return []
    | v => return [v]
  | _ => return []

/-- What is wrong with a value for a property, if anything.  The values of a computed choice are
asked for only if the value fits otherwise. -/
def refusal (id : InstanceId) (d : PropertyDef) (v : Value) : Action β σ (Option String) := do
  match d.validate v with
  | .error message => return some message
  | .ok _ =>
    match d.kind.choiceMethod? with
    | none => return none
    | some _ =>
      let allowed ← e.choices id d.key
      return if allowed.any (·.equals v) then none else some (PropertyDef.notAChoice v)

/-- Refuses a value that does not fit a property. -/
def checkValue (id : InstanceId) (d : PropertyDef) (v : Value) : Action β σ Unit := do
  match ← e.refusal id d v with
  | some message => throw (.property (.invalidValue d.key.label message))
  | none => return

/-- The name of the method that is told about changes. -/
def propsChangedName : Symbol := ⟨"propsChanged"⟩

/-- **Tells the type about changed properties**, before they are final or after they were put
back.  Without a method, or with a void answer, the change is accepted. -/
def propsChanged (id : InstanceId) (keys : List Symbol) (asking : Bool) : Action β σ Bool := do
  let type ← Action.typeOf id
  match ← Action.findMethod type propsChangedName with
  | none => return true
  | some (_, handler) =>
    let answer ← e.invoke handler (some id)
      [.list (keys.map .symbol), .int (if asking then 1 else 0)]
    return answer.isVoid || answer.isTruthy

/-- The values of several properties. -/
def getProperties (id : InstanceId) : List Symbol → Action β σ (List (Symbol × Value))
  | [] => return []
  | key :: keys => do
    let v ← e.getProperty id key
    return (key, v) :: (← getProperties id keys)

/-- **The properties of an instance at this moment.** -/
def capture (id : InstanceId) : Action β σ PropertyCapture := do
  let table := (← Action.find id).properties
  return ⟨table, ← e.getProperties id table.keys⟩

/-- Writes back the values that differ from captured ones. -/
def restoreValues (id : InstanceId) : List (Symbol × Value) → Action β σ Unit
  | [] => return
  | (key, v) :: rest => do
    let now ← e.getProperty id key
    if !now.same v then e.writeProperty id key v
    restoreValues id rest

/-- **Puts properties back as they were captured.**  The stored values of properties that were
declared since are dropped. -/
def restore (id : InstanceId) (before : PropertyCapture) : Action β σ Unit := do
  Action.update id fun i =>
    let added := i.properties.keys.filter (!before.table.contains ·)
    { i with
      dynamic := added.foldl Association.erase i.dynamic
      properties := before.table }
  e.restoreValues id before.values

/-- Passes a change on through the product data that apply to the instance. -/
def propagate (id : InstanceId) (key : Symbol) : Action β σ Unit := do
  match ← Action.ask (·.productDataOf id) with
  | none => return
  | some data =>
    match data.evaluate with
    | none => return
    | some body => e.run (e.language.evaluate body id key)

/-- Writes a value, passes the change on, and asks the type. -/
def writeAndAsk (id : InstanceId) (key : Symbol) (v : Value) : Action β σ Bool := do
  e.writeProperty id key v
  e.propagate id key
  e.propsChanged id (← Action.currentKeys) true

/-- Puts properties back after a change that was not accepted and tells the type.  The error of the
change comes before that of the notice. -/
def rollBack (id : InstanceId) (before : PropertyCapture) (accepted : Except ModelError Bool) :
    Action β σ Unit := do
  let keys ← Action.currentKeys
  e.restore id before
  let noticed ← Action.attempt (e.propsChanged id keys false)
  let _ ← Action.ofExcept accepted
  let _ ← Action.ofExcept noticed

/-- Carries out a checked change.  Tells whether a definition or a value differs from before. -/
def applyChange (id : InstanceId) (key : Symbol) (v : Value) (before : PropertyCapture) :
    Action β σ Bool := do
  let accepted ← Action.attempt (e.writeAndAsk id key v)
  match accepted with
  | .ok true => pure ()
  | accepted => e.rollBack id before accepted
  let after ← e.capture id
  let differs := !PropertyCapture.sameValues after.values before.values
  if differs then
    Action.update id fun i => { i with changed := true }
  return differs || !(after.table == before.table)

/-- **Sets the value of a property** under the full procedure.  An undeclared property is ignored, a
disabled one refused. -/
def setProperty (id : InstanceId) (key : Symbol) (v : Value) : Action β σ Bool := do
  Action.modifyChanges (·.clearLast)
  match (← Action.find id).properties.get? key with
  | none => return false
  | some d =>
    if d.state = .disabled then
      throw (.property (.disabled key.label))
    if (← Action.config).validateProperties then
      e.checkValue id d v
    let before ← e.capture id
    Action.modifyChanges (·.start)
    let result ← Action.attempt (e.applyChange id key v before)
    Action.modifyChanges (·.finish)
    Action.ofExcept result

end Engine

end ProductModel
