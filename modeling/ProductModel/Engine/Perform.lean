import ProductModel.Engine.Inspection
import ProductModel.Engine.Creation
import ProductModel.Engine.Placement

/-!
# Performing operations

Operations run bodies, and bodies perform operations.  The circle is closed by an allowance for
nesting: `perform L n` performs operations whose bodies are nested at most `n` deep, and each body
is run with the allowance `n - 1`.  An operation that needs more has no outcome.

* `Engine.step` says what each operation does, given a way to run bodies.
* `perform` closes the circle, and `Body.exec` runs a program from outside.
-/

namespace ProductModel

namespace Engine

variable {β σ : Type} (e : Engine β σ)

/-- The views of several subtrees, `limit` levels deep. -/
def snapshotTo : Nat → InstanceId → Action β σ Snapshot
  | 0, id => throw (Arena.destroyedError id)
  | limit + 1, id => do
    let i ← Action.find id
    let typeName := (← Action.model).types.name i.type
    let properties ← e.getProperties id i.properties.keys
    let children ← (← Action.find id).children.mapM (snapshotTo limit)
    return .node i.localName typeName i.element
      (Snapshot.sortProperties (properties.map fun (key, v) => (key.label, v))) children

/-- **A view of a subtree** with the values of its properties. -/
def snapshot (id : InstanceId) : Action β σ Snapshot := do
  e.snapshotTo (Arena.capacity + 1) id

/-- Registers or redefines a type. -/
def changeTypes (change : Registry β → Except TypeError (TypeId × Registry β)) :
    Action β σ TypeId := do
  let (id, types) ← Action.ofExcept ((change (← Action.model).types).mapError .type)
  Action.modifyModel fun m => { m with types }
  return id

/-- **What each operation does.** -/
def step : (op : Op β) → Action β σ op.Answer
  | .register d => changeTypes (·.register d)
  | .redefine typeName d => changeTypes (·.redefine typeName d)
  | .findMethod id name => Action.findMethod id name
  | .resolve id name => Action.resolve id name
  | .getAttr id name => Action.getAttr id name
  | .setAttr id name v => Action.setAttr id name v
  | .call id name args => e.call id name args
  | .callStatic typeName name args => e.callStatic typeName name args
  | .callSuper typeName id name args => e.callSuper typeName id name args
  | .callSuperIfAny typeName id name args => e.callSuperIfAny typeName id name args
  | .evalBinary a op b => e.evalBinary a op b
  | .instantiate typeName father name args => e.instantiate typeName father name args
  | .addElement father typeName args => e.addElement father typeName args
  | .remove id => e.remove id
  | .rename id name => Action.rename id name
  | .beElement id => Action.beElement id
  | .unBeElement id => Action.unBeElement id
  | .absoluteName id => Action.absoluteName id
  | .describe id => Action.describe id
  | .snapshot id => e.snapshot id
  | .setChanged id changed => Action.update id fun i => { i with changed }
  | .setFlags id flags => Action.update id fun i => { i with flags }
  | .callRules id reason phase arg => e.callRules id reason phase arg
  | .sweep kind root => e.sweep kind root
  | .setupProperty id d => Action.setupProperty id d
  | .removeProperty id key => Action.removeProperty id key
  | .setPropertyState id key state => Action.setPropertyState id key state
  | .propertyState id key => Action.propertyState id key
  | .getProperty id key => e.getProperty id key
  | .writeProperty id key v => e.writeProperty id key v
  | .setProperty id key v => e.setProperty id key v
  | .choices id key => e.choices id key
  | .checkConsistency root log => e.checkConsistency root log
  | .attachGeometry id geometry => Action.attachGeometry id geometry
  | .setProductData id data => Action.setProductData id data
  | .setProgram id program => Action.setProgram id program
  | .setPosition id position => Action.setPosition id position
  | .translate id delta => e.translate id delta
  | .rotate id axis angle => e.rotate id axis angle
  | .pick id => e.pick id
  | .info => return (← get).info

end Engine

/-- **Performs an operation** whose bodies are nested at most `allowance` deep. -/
def perform {β σ : Type} (L : Language β σ) : Nat → (op : Op β) → Action β σ op.Answer
  | 0, _ => Action.exhausted
  | allowance + 1, op =>
    Engine.step ⟨L, fun body => body.run (perform L allowance)⟩ op

/-- **Runs a program from outside**, with an allowance for nesting. -/
def Body.exec {β σ α : Type} (L : Language β σ) (allowance : Nat) (p : Body β σ α) :
    Action β σ α :=
  p.run (perform L allowance)

end ProductModel
