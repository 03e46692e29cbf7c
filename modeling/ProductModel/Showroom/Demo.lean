import ProductModel.Engine.Perform
import ProductModel.Showroom

/-!
# A walk through the showroom

The walk adds elements to a cabinet, sets properties, removes elements and checks the result.
Some of these attempts are refused, and the walk shows how.  It ends with a report: what was
tried, with what outcome, and a view of the final tree.
-/

namespace ProductModel.Showroom

/-- **Something that was tried**, and what came of it. -/
structure DemoStep where
  action : String
  outcome : String
  deriving DecidableEq, Repr

/-- **The report of the walk.** -/
structure DemoReport where
  steps : List DemoStep
  tree : Snapshot

namespace Demo

variable {β σ : Type}

/-- The text for the outcome of adding an element. -/
def creationText : ElementOutcome → Body β σ String
  | .accepted id => do return "accepted as " ++ (← Program.call (Op.describe id))
  | .demoted id rejection => do
    return (← Program.call (Op.describe id)) ++ s!" kept as plain child ({rejection.text})"
  | .rejected rejection => .pure s!"rejected ({rejection.text})"

/-- The text for the outcome of removing an instance. -/
def removalText : RemoveOutcome → String
  | .removed destroyed => s!"removed {destroyed.length} instance(s)"
  | .vetoed rejection => s!"vetoed ({rejection.text})"

/-- Tries to add an element. -/
def add (action : String) (cabinet : InstanceId) (typeName : String) (args : List Value) :
    Body β σ DemoStep := do
  let outcome ← Program.call (Op.addElement cabinet typeName args)
  return ⟨action, ← creationText outcome⟩

/-- Tries to set a property. -/
def change (action : String) (id : InstanceId) (key : Symbol) (v : Value) :
    Body β σ DemoStep := do
  let changed ← Program.call (Op.setProperty id key v)
  return ⟨action, s!"changed: {changed}"⟩

/-- Tries to set the color to one that is not offered; gives a step only if that fails. -/
def refuseColor (cabinet : InstanceId) : Body β σ (List DemoStep) :=
  .perform (.setProperty cabinet color (.symbol ⟨"red"⟩)) fun
    | .ok _ => .pure []
    | .error e => .pure [⟨"set color = @red", s!"error: {e.message}"⟩]

/-- Tries to remove several instances. -/
def removeEach : List InstanceId → Body β σ (List DemoStep)
  | [] => .pure []
  | id :: ids => do
    let name ← Program.call (Op.describe id)
    let outcome ← Program.call (Op.remove id)
    return ⟨s!"remove {name}", removalText outcome⟩ :: (← removeEach ids)

/-- The text for the extent of a box, in metres. -/
def extentText (b : Bounds) : String :=
  let size := b.size
  Decimal.fixed 2 true size.x ++ " x " ++ Decimal.fixed 2 true size.y ++ " x "
    ++ Decimal.fixed 2 true size.z

/-- The step that shows the extent of a cabinet, if that has any geometry. -/
def extentStep (cabinet : InstanceId) : Body β σ (List DemoStep) := do
  let _ ← Program.ask (·.arena.find cabinet)
  match (← Program.view).arena.localBounds cabinet with
  | some b => return [⟨"cabinet bounds", extentText b⟩]
  | none => return []

/-- Checks a subtree with a log of its own. -/
def checkStep (root : InstanceId) : Body β σ DemoStep := do
  let result ← Program.call (Op.checkConsistency root ProblemLog.empty)
  let found ← Program.ofExcept result.found
  return ⟨"check consistency", s!"{found} problem(s)"⟩

/-- **The walk.** -/
def walk (code : Routine → β) : Body β σ DemoReport := do
  let room ← build code usualShelves
  let cabinet := room.cabinet
  let addShelf ← add "add Shelf to cabinet" cabinet "Shelf" [.str "SHF-01"]
  let addCabinet ← add "add Cabinet to cabinet" cabinet "Cabinet" []
  let widen ← change "set width = 1.0" cabinet width (.float 1.0)
  let close ← change "set doors = true" cabinet doors (.bool true)
  let overdo ← change "set width = 1.6" cabinet width (.float 1.6)
  let widthNow := (← Program.call (Op.getProperty cabinet width)).text
  let overdo := { overdo with outcome := overdo.outcome ++ ", width now " ++ widthNow }
  let paint ← refuseColor cabinet
  let removals ← removeEach (← Program.ask (·.elements cabinet))
  let check ← checkStep room.environment
  let extent ← extentStep cabinet
  let tree ← Program.call (Op.snapshot room.environment)
  return {
    steps := [addShelf, addCabinet, widen, close, overdo] ++ paint ++ removals ++ [check] ++ extent
    tree }

/-- The keys of the properties that the walk meets. -/
def keys : List Symbol := [width, color, doors, height]

/-- All symbols that the walk meets: the reasons of the model, the names of the showroom, the
accessors of its properties, and the types that rules are asked about. -/
def vocabulary : List Symbol :=
  Reason.all.map Reason.symbol
    ++ [article, ⟨"initialize"⟩, ⟨"propsChanged"⟩, insertable]
    ++ keys ++ colors ++ [⟨"red"⟩]
    ++ [⟨"Shelf"⟩, ⟨"Cabinet"⟩]
    ++ keys.flatMap fun key => [Accessor.getter key, Accessor.setter key]

/-- The number of symbols of a program that takes the walk. -/
def symbolCount : Nat := (SymbolTable.empty.internAll (vocabulary.map (·.label))).size

end Demo

namespace DemoReport

/-- A text filled up with blanks to a width. -/
def padded (width : Nat) (s : String) : String :=
  s ++ String.ofList (List.replicate (width - s.length) ' ')

/-- The lines that show a report: the steps, the tree, and the counts of the world. -/
def lines (r : DemoReport) (info : WorldInfo) : List String :=
  r.steps.map (fun step => padded 40 step.action ++ " " ++ step.outcome)
    ++ [""] ++ r.tree.lines 0
    ++ [""] ++ info.lines (some Demo.symbolCount) ++ [""]

/-- The stored form of a step. -/
def encodeStep (step : DemoStep) : Json :=
  .record [("action", .str step.action), ("outcome", .str step.outcome)]

/-- The stored form of a report. -/
def encode (r : DemoReport) : Json :=
  .record [("steps", .array (r.steps.map encodeStep)), ("tree", r.tree.encode)]

end DemoReport

/-- How deep bodies of the walk may be nested. -/
def demoAllowance : Nat := 1000

/-- **Takes the walk in a world of its own.**  Gives the report and the final counts; none if the
bodies are nested too deep. -/
def demo (config : Config) : Option (Except ModelError (DemoReport × WorldInfo)) :=
  let start : World Routine Unit := { config, host := () }
  ((Body.exec language demoAllowance (Demo.walk id)).outcome start).map fun (result, after) =>
    result.map fun report => (report, after.info)

end ProductModel.Showroom
