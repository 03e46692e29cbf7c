import ProductModel.Script.Command

/-!
# Steps of scripts

A step controls the flow of a script or carries out a command.  Steps run in order.  An error ends
the run, unless a step that tries others catches it; a returned value ends the body that runs.
-/

namespace ProductModel.Script

/-- **A step.** -/
inductive Step (β : Type) where
  | note (v : Expr)
  | set (name : String) (v : Expr)
  /-- ends the body with a value -/
  | back (v : Expr)
  | branch (condition : Expr) (yes no : List (Step β))
  /-- runs steps and catches their error -/
  | attempt (steps : List (Step β))
  | again (times : Nat) (steps : List (Step β))
  /-- carries out a command and may bind a variable to its answer -/
  | act (command : Command β) (into : Option String)

/-- **How steps end**: they go on with what follows, or leave the body with a value. -/
inductive Flow where
  | next
  | returned (v : Value)
  deriving Repr

namespace Step

variable {β : Type}

/-- Goes on only if nothing was returned. -/
def andThen (first rest : Action β Flow) : Action β Flow := do
  match ← first with
  | .next => rest
  | .returned v => return .returned v

/-- Runs something several times. -/
def runTimes (body : Action β Flow) : Nat → Action β Flow
  | 0 => .pure .next
  | n + 1 => andThen body (runTimes body n)

/-- Catches an error and notes it on the trace. -/
def catching (body : Action β Flow) : Action β Flow :=
  body.tryCatch fun e => do
    Program.modifyState (·.note (.error e))
    return .next

/-- Carries out a command and binds a variable to its answer. -/
def carryOut (code : Showroom.Routine → β) (scope : Scope) (command : Command β)
    (into : Option String) : Action β (Answer β) := do
  let answer ← command.exec code scope
  match into with
  | some name => Program.modifyState (·.set name answer.bound)
  | none => pure ()
  return answer

mutual

/-- **Runs a step.** -/
def run (code : Showroom.Routine → β) (scope : Scope) : Step β → Action β Flow
  | note v => do
    let v ← v.eval scope
    Program.modifyState (·.note (.value v))
    return .next
  | set name v => do
    let v ← v.eval scope
    Program.modifyState (·.set name v)
    return .next
  | back v => do return .returned (← v.eval scope)
  | branch condition yes no => do
    if (← condition.eval scope).isTruthy then runAll code scope yes
    else runAll code scope no
  | attempt steps => catching (runAll code scope steps)
  | again times steps => runTimes (runAll code scope steps) times
  | act command into => do
    let _ ← carryOut code scope command into
    return .next

/-- **Runs steps in order.** -/
def runAll (code : Showroom.Routine → β) (scope : Scope) : List (Step β) → Action β Flow
  | [] => .pure .next
  | step :: steps => andThen (run code scope step) (runAll code scope steps)

end

/-- **Runs a step of a session**, which is outside of any body. -/
def top (code : Showroom.Routine → β) : Step β → Action β (Answer β)
  | act command into => carryOut code {} command into
  | step => do
    let _ ← run code {} step
    return .done

end Step

end ProductModel.Script
