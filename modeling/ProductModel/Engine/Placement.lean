import ProductModel.Engine.RuleChain

/-!
# Placement at work

Moving and turning an instance is gated by rules: the anterior ones run before anything changes
and can prevent it, the posterior ones run afterwards.  Attached geometry is told about every
movement.  A pick is decided by the rules of the instance that it means.
-/

namespace ProductModel

namespace Action

variable {β σ : Type}

/-- **Attaches geometry to an instance.** -/
def attachGeometry (id : InstanceId) (geometry : Geometry β) : Action β σ Unit :=
  update id fun i => { i with geometry := some geometry }

/-- **Registers product data** for the instances whose program this is. -/
def setProductData (id : InstanceId) (data : ProductData β) : Action β σ Unit := do
  let _ ← find id
  modifyModel fun m => { m with products := m.products.insert id data }

/-- **Assigns a program to an instance.** -/
def setProgram (id program : InstanceId) : Action β σ Unit := do
  let _ ← find program
  update id fun i => { i with program := some program }

/-- Places an instance without asking rules. -/
def setPosition (id : InstanceId) (position : Vec3) : Action β σ Unit :=
  update id fun i => { i with position }

end Action

namespace Engine

variable {β σ : Type} (e : Engine β σ)

/-- Tells the geometry of an instance where it is and how it is turned. -/
def notifyGeometry (id : InstanceId) : Action β σ Unit := do
  let i ← Action.find id
  match i.geometry.bind (·.observer) with
  | none => return
  | some observer =>
    modify fun w =>
      { w with host := e.language.transformed observer i.position i.rotation w.host }

/-- **A movement between rules**: the anterior rules of the reason, the change, the posterior
rules.  Both see the same argument. -/
def move (id : InstanceId) (reason : Symbol) (arg : Value) (change : Instance β → Instance β) :
    Action β σ ChainOutcome := do
  match ← e.callRules id reason (some .anterior) arg with
  | .rejected rejection => return .rejected rejection
  | .passed _ =>
    Action.update id change
    e.notifyGeometry id
    e.callRules id reason (some .posterior) arg

/-- **Moves an instance** in its father's frame.  Rules see the components of the movement. -/
def translate (id : InstanceId) (delta : Vec3) : Action β σ ChainOutcome :=
  e.move id Reason.translate.symbol (.list (delta.toList.map .float))
    fun i => { i with position := i.position + delta }

/-- **Turns an instance** about an axis.  Rules see the axis and the angle. -/
def rotate (id : InstanceId) (axis : Axis) (angle : Float) : Action β σ ChainOutcome :=
  e.move id Reason.rotate.symbol (.list [.symbol ⟨axis.label⟩, .float angle])
    fun i => { i with rotation := i.rotation.addAt axis angle }

/-- **The instance that a pick selects**, if it can be selected and its rules agree. -/
def pick (id : InstanceId) : Action β σ (Option InstanceId) := do
  let _ ← Action.find id
  let target := (← Action.model).arena.pickTarget id
  if !(← Action.find target).flags.selectable then return none
  match ← e.callRules target Reason.pick.symbol none (.ref id) with
  | .passed _ => return some target
  | .rejected _ => return none

end Engine

end ProductModel
