import ProductModel.Engine.PropertyChange

/-!
# Consistency checks at work

A check goes over a subtree.  For every instance it first looks for property values that do not fit
their definitions, then runs the checks of the types along the lineage, the most general first.
-/

namespace ProductModel

/-- What a consistency check of a type does while it runs: it adds to a log. -/
abbrev Logged (β σ α : Type) := Action β (σ × ProblemLog) α

namespace Action

variable {β σ α : Type}

/-- Carries out an action beside a log that it does not touch. -/
def withLog (x : Action β σ α) : Logged β σ α :=
  ExceptT.mk fun w =>
    let (host, log) := w.host
    match x.outcome { w with host } with
    | none => none
    | some (r, w) => some (r, { w with host := (w.host, log) })

/-- Carries out an action with a log of its own, and gives the log beside the result. -/
def collecting (log : ProblemLog) (x : Logged β σ α) :
    Action β σ (Except ModelError α × ProblemLog) :=
  ExceptT.mk fun w =>
    match x.outcome { w with host := (w.host, log) } with
    | none => none
    | some (r, w) =>
      let (host, log) := w.host
      some (.ok (r, log), { w with host })

/-- Adds a problem of an instance to the log, under its order number and its present name. -/
def report (id : InstanceId) (property : Option Symbol) (message : String) : Logged β σ Unit := do
  let order := (((← model).arena.get? id).map (·.order)).getD 0
  let path ← describe id
  modify fun w =>
    let (host, log) := w.host
    { w with host := (host, log.push order { subject := id, path, property, message }) }

end Action

namespace Inspection

variable {β σ : Type}

/-- What the operations of a check do. -/
def handler : (op : InspectOp) → Logged β σ op.Answer
  | .getAttr id name => Action.getAttr id name
  | .absoluteName id => Action.absoluteName id
  | .report id property message => Action.report id property message

/-- **Runs the check of a type.**  It sees the state of its language beside the log; an error ends
it without further notice. -/
def run : Inspection β σ Unit → Logged β σ Unit
  | .pure _ => return
  | .fail _ => return
  | .perform op next => do
    let r ← Action.attempt (handler op)
    run (next r)
  | .look next => do
    let w ← get
    run (next w.model w.host.1)
  | .put host next => do
    modify fun w => { w with host := (host, w.host.2) }
    run next

end Inspection

namespace Engine

variable {β σ : Type} (e : Engine β σ)

/-- Reports the properties of an instance, of the given keys, whose values do not fit.  Disabled
properties and those without a value are passed over. -/
def checkProperties (id : InstanceId) : List Symbol → Logged β σ Unit
  | [] => return
  | key :: keys => do
    match (← Action.find id).properties.get? key with
    | none => pure ()
    | some d =>
      if d.state ≠ .disabled then
        let v ← Action.withLog (e.getProperty id key)
        if !v.isVoid then
          match ← Action.attempt (Action.withLog (e.checkValue id d v)) with
          | .ok _ => pure ()
          | .error err => Action.report id (some key) err.message
    checkProperties id keys

/-- Runs the checks of several types on an instance. -/
def runChecks (id : InstanceId) : List TypeId → Logged β σ Unit
  | [] => return
  | type :: types => do
    match ((← Action.model).types.definition? type).bind (·.check) with
    | none => pure ()
    | some body => Inspection.run (e.language.inspect body id)
    runChecks id types

/-- Checks instances in turn. -/
def checkAll : List InstanceId → Logged β σ Unit
  | [] => return
  | id :: ids => do
    e.checkProperties id (← Action.find id).properties.keys
    let type ← Action.typeOf id
    e.runChecks id ((← Action.model).types.lineage type)
    checkAll ids

/-- **Checks a subtree**, fathers before children, and adds the problems to a log.  The problems
found before an error stay in the log. -/
def checkConsistency (root : InstanceId) (log : ProblemLog) : Action β σ CheckResult := do
  let (result, after) ← Action.collecting log do
    let _ ← Action.find root
    e.checkAll ((← Action.model).arena.preorder root)
  return ⟨after, result.map fun _ => after.size - log.size⟩

end Engine

end ProductModel
