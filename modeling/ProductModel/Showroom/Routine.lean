import ProductModel.Program.Operation

/-!
# The routines of the showroom

The showroom is a small furniture program: an environment holds a cabinet, and the cabinet holds
shelves.

* `Furniture`, which is abstract, keeps an article number and lets every element be removed.
* `Cabinet` is furniture that takes only insertable elements, keeps at least one shelf, and refuses
  doors on a wide body.
* `Shelf` is insertable furniture that starts with the width of its cabinet.

The bodies of these types are the routines of this module.  They are programs over the operations
of any model, so the showroom can stand beside types whose bodies are other code.
-/

namespace ProductModel.Showroom

/-- **The bodies of the showroom.** -/
inductive Routine where
  | initializeFurniture
  | initializeCabinet
  | initializeShelf
  | cabinetChanged
  | acceptRemoval
  | acceptInsertable
  | keepOneShelf
  | checkShelves
  | spreadWidth
  deriving DecidableEq, Repr

variable {β σ : Type}

/-- The widest body that may carry doors. -/
def maxDoorWidth : Float := 1.2

/-- The key of the width. -/
def width : Symbol := ⟨"width"⟩

/-- The key of the color. -/
def color : Symbol := ⟨"color"⟩

/-- The key of the doors. -/
def doors : Symbol := ⟨"doors"⟩

/-- The key of the height. -/
def height : Symbol := ⟨"height"⟩

/-- The field with the article number. -/
def article : Symbol := ⟨"article"⟩

/-- The category of what a cabinet takes. -/
def insertable : Symbol := ⟨"Insertable"⟩

/-- The colors of a cabinet. -/
def colors : List Symbol := [⟨"oak"⟩, ⟨"white"⟩, ⟨"graphite"⟩]

/-- The elements of an instance that are shelves. -/
def shelvesOf (m : Model β) (id : InstanceId) : Except ModelError (List InstanceId) := do
  (← m.elements id).filterM (m.isA · "Shelf")

/-- The receiver of a method that needs one. -/
def receiver (call : MethodCall) (name : String) : Body β σ InstanceId :=
  match call.receiver with
  | some id => .pure id
  | none => .fail (.dispatch (.missingReceiver name))

/-- Writes a width to several shelves. -/
def writeWidths (v : Value) : List InstanceId → Body β σ Unit
  | [] => .pure ()
  | shelf :: shelves => do
    Program.call (Op.writeProperty shelf width v)
    writeWidths v shelves

/-- Furniture keeps the article number that it is made with. -/
def initializeFurniture (call : MethodCall) : Body β σ Value := do
  let id ← receiver call "initialize"
  match call.args with
  | v :: _ => Program.call (Op.setAttr id article v)
  | [] => pure ()
  return .void

/-- The definition of a cabinet's width. -/
def cabinetWidth : PropertyDef :=
  { key := width, name := "Width", kind := .float, bounds := some (.range 0.4 2.0)
    format := some "%.2f m" }

/-- The definition of a cabinet's color. -/
def cabinetColor : PropertyDef :=
  { key := color, name := "Color", kind := .choice (colors.map .symbol) }

/-- The definition of a cabinet's doors. -/
def cabinetDoors : PropertyDef := { key := doors, name := "Doors", kind := .bool }

/-- The definition of a shelf's height. -/
def shelfHeight : PropertyDef :=
  { key := height, name := "Height", kind := .float, bounds := some (.range 0.05 2.0) }

/-- The definition of a shelf's width. -/
def shelfWidth : PropertyDef := { key := width, name := "Width", kind := .float }

/-- A cabinet starts closed, narrow and of oak. -/
def initializeCabinet (call : MethodCall) : Body β σ Value := do
  let id ← receiver call "initialize"
  let _ ← Program.call (Op.callSuper "Cabinet" id ⟨"initialize"⟩ call.args)
  let _ ← Program.call (Op.setupProperty id cabinetWidth)
  let _ ← Program.call (Op.setupProperty id cabinetColor)
  let _ ← Program.call (Op.setupProperty id cabinetDoors)
  Program.call (Op.writeProperty id width (.float 0.8))
  Program.call (Op.writeProperty id color (.symbol ⟨"oak"⟩))
  Program.call (Op.writeProperty id doors (.bool false))
  return .void

/-- A shelf starts with the width of its father, if that has one. -/
def initializeShelf (call : MethodCall) : Body β σ Value := do
  let id ← receiver call "initialize"
  let _ ← Program.call (Op.callSuper "Shelf" id ⟨"initialize"⟩ call.args)
  let _ ← Program.call (Op.setupProperty id shelfHeight)
  let _ ← Program.call (Op.setupProperty id shelfWidth)
  let fatherWidth ← match (← Program.ask (·.arena.find id)).father with
    | some father => Program.call (Op.getProperty father width)
    | none => pure .void
  Program.call (Op.writeProperty id height (.float 0.3))
  Program.call (Op.writeProperty id width
    (if fatherWidth.isVoid then .float 0.8 else fatherWidth))
  return .void

/-- A cabinet refuses doors when it is too wide.  After a change was taken back, the shelves may
still have the refused width, so they get the present one. -/
def cabinetChanged (call : MethodCall) : Body β σ Value := do
  let id ← receiver call "propsChanged"
  if (call.args[1]?).bind Value.toInt? ≠ some 1 then
    let v ← Program.call (Op.getProperty id width)
    writeWidths v (← Program.ask (shelvesOf · id))
    return .void
  let hasDoors := (← Program.call (Op.getProperty id doors)).isTruthy
  let v := ((← Program.call (Op.getProperty id width)).toFloat?).getD 0.0
  return .bool !(hasDoors && maxDoorWidth < v)

/-- A cabinet takes only insertable elements. -/
def acceptInsertable (call : RuleCall) : Body β σ Verdict := do
  let m ← Program.view
  match call.arg.toSymbol?.bind (m.types.lookup ·.label) with
  | some type => return .ofBool (m.types.hasCategory type insertable)
  | none => return .reject

/-- A cabinet keeps its last shelf. -/
def keepOneShelf (call : RuleCall) : Body β σ Verdict := do
  match call.arg.toRef? with
  | none => return .accept
  | some target =>
    if !(← Program.ask (·.isA target "Shelf")) then return .accept
    let shelves ← Program.ask (shelvesOf · call.subject)
    return .ofBool (1 < shelves.length)

/-- A cabinet without shelves is a problem. -/
def checkShelves (id : InstanceId) : Inspection β σ Unit := do
  match shelvesOf (← Program.view) id with
  | .ok [] => Program.call (InspectOp.report id none "cabinet has no shelves")
  | _ => return

/-- A changed width of a cabinet is passed on to its shelves. -/
def spreadWidth (id : InstanceId) (key : Symbol) : Body β σ Unit := do
  if key ≠ width then return
  if !(← Program.ask (·.isA id "Cabinet")) then return
  let v ← Program.call (Op.getProperty id width)
  writeWidths v (← Program.ask (shelvesOf · id))

namespace Routine

/-- The routines that are methods. -/
def method : Routine → MethodCall → Body β σ Value
  | initializeFurniture => Showroom.initializeFurniture
  | initializeCabinet => Showroom.initializeCabinet
  | initializeShelf => Showroom.initializeShelf
  | cabinetChanged => Showroom.cabinetChanged
  | _ => fun _ => .pure .void

/-- The routines that are rules. -/
def rule : Routine → RuleCall → Body β σ Verdict
  | acceptInsertable => Showroom.acceptInsertable
  | keepOneShelf => Showroom.keepOneShelf
  | _ => fun _ => .pure .accept

/-- The routines that are product data. -/
def evaluate : Routine → InstanceId → Symbol → Body β σ Unit
  | spreadWidth => Showroom.spreadWidth
  | _ => fun _ _ => .pure ()

/-- The routines that are checks. -/
def inspect : Routine → InstanceId → Inspection β σ Unit
  | checkShelves => Showroom.checkShelves
  | _ => fun _ => .pure ()

end Routine

/-- **The language whose only code is the showroom's.** -/
def language : Language Routine σ where
  method := Routine.method
  rule := Routine.rule
  evaluate := Routine.evaluate
  inspect := Routine.inspect
  transformed _ _ _ := id

end ProductModel.Showroom
