import ProductModel.Engine.Perform
import ProductModel.Script.Code

/-!
# Playing a session

A session runs steps one after the other on a world of its own.  Every step has a result, an
answer or an error, and the trace of what was noted while it ran; a step that fails does not stop
the session.
-/

namespace ProductModel.Script

/-- **The result of a step of a session.** -/
structure Outcome where
  result : Except ModelError (Answer Code)
  trace : List TraceEntry

/-- How deep bodies of a session may be nested. -/
def allowance : Nat := 1000000

/-- The world in which a session starts. -/
def startWorld (config : Config) : World Code (Session Code) := { config, host := {} }

/-- Runs a step in a world; none if its bodies are nested too deep. -/
def playStep (w : World Code (Session Code)) (step : Step Code) :
    Option (Outcome × World Code (Session Code)) :=
  let w := { w with host := { w.host with trace := [] } }
  ((Body.exec language allowance (step.top Code.routine)).outcome w).map fun (result, after) =>
    (⟨result, after.host.trace⟩, after)

/-- Runs steps in a world. -/
def playAll (w : World Code (Session Code)) : List (Step Code) → List Outcome
  | [] => []
  | step :: steps =>
    match playStep w step with
    | none => []
    | some (outcome, after) => outcome :: playAll after steps

/-- **Plays a session.** -/
def play (config : Config) (steps : List (Step Code)) : List Outcome :=
  playAll (startWorld config) steps

end ProductModel.Script
