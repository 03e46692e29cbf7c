import ProductModel.Script.Step

/-!
# Scripts as the bodies of types

A body is a script, a list of conditions that a consistency check looks at, the name under which
movements are noted, or a routine of the showroom.  `language` says what each of them does where a
body is run.
-/

namespace ProductModel.Script

/-- **When an entry of a check applies.** -/
inductive Condition where
  | childless
  | noElements
  | attributeFalsy (name : Symbol)
  | always
  deriving DecidableEq, Repr

/-- **An entry of a check**: a condition, and the problem that it reports. -/
structure CheckEntry where
  condition : Condition
  message : String
  property : Option Symbol := none
  /-- the variable that holds the instance to report, if that is not the checked one -/
  subject : Option String := none
  deriving DecidableEq, Repr

/-- **A body.** -/
inductive Code where
  | script (steps : List (Step Code))
  | check (entries : List CheckEntry)
  | observer (label : String)
  | routine (r : Showroom.Routine)

namespace Code

/-- A script with what it knows of its call: the value that it returns, if it does. -/
def returned (steps : List (Step Code)) (scope : Scope) : Action Code (Option Value) := do
  match ← Step.runAll routine scope steps with
  | .next => return none
  | .returned v => return some v

/-- A body as a method; without a returned value it results in void. -/
def method : Code → MethodCall → Action Code Value
  | script steps, call => do
    return (← returned steps { receiver := call.receiver, args := call.args }).getD .void
  | routine r, call => r.method call
  | _, _ => .pure .void

/-- A body as a rule; it accepts unless it returns a falsy value. -/
def rule : Code → RuleCall → Action Code Verdict
  | script steps, call => do
    let types := (← Program.view).types
    let result ← returned steps {
      receiver := some call.subject
      args := [call.arg]
      reason := .symbol call.reason
      definingType := types.name call.definingType }
    return .ofBool (result.all Value.isTruthy)
  | routine r, call => r.rule call
  | _, _ => .pure .accept

/-- A body as product data. -/
def evaluate : Code → InstanceId → Symbol → Action Code Unit
  | script steps, id, key => do
    let _ ← returned steps { receiver := some id, args := [.symbol key] }
  | routine r, id, key => r.evaluate id key
  | _, _, _ => .pure ()

/-- Whether the condition of an entry holds for an instance. -/
def applies (id : InstanceId) : Condition → Inspection Code (Session Code) Bool
  | .childless => do
    return ((← Program.view).arena.get? id).any (·.children.isEmpty)
  | .noElements => do
    match (← Program.view).elements id with
    | .ok elements => return elements.isEmpty
    | .error _ => return false
  | .attributeFalsy name =>
    .perform (.getAttr id name) fun
      | .ok v => .pure !v.isTruthy
      | .error _ => .pure false
  | .always => .pure true

/-- The instance that an entry reports. -/
def reported (id : InstanceId) (subject : Option String) :
    Inspection Code (Session Code) InstanceId := do
  let session ← Program.state
  return ((subject.map session.get).bind Value.toRef?).getD id

/-- Looks at the entries of a check in turn. -/
def inspectAll (id : InstanceId) : List CheckEntry → Inspection Code (Session Code) Unit
  | [] => .pure ()
  | entry :: entries => do
    if ← applies id entry.condition then
      let subject ← reported id entry.subject
      Program.call (InspectOp.report subject entry.property entry.message)
    inspectAll id entries

/-- A body as a consistency check. -/
def inspect : Code → InstanceId → Inspection Code (Session Code) Unit
  | check entries, id => inspectAll id entries
  | routine r, id => r.inspect id
  | _, _ => .pure ()

/-- A body that is told about movements. -/
def transformed : Code → Vec3 → Vec3 → Session Code → Session Code
  | observer label, position, rotation, s => s.note (.moved label position rotation)
  | _, _, _, s => s

end Code

/-- **The language of scripts.** -/
def language : Language Code (Session Code) where
  method := Code.method
  rule := Code.rule
  evaluate := Code.evaluate
  inspect := Code.inspect
  transformed := Code.transformed

end ProductModel.Script
