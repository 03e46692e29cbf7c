import ProductModel.Showroom.Routine

/-!
# The showroom

The types of the showroom, its catalog of articles, and the program that builds a cabinet with
shelves.  The code of the bodies is given through an embedding of the showroom's routines.
-/

namespace ProductModel.Showroom

variable {β σ : Type} (code : Routine → β)

/-- The type of the root. -/
def environmentType : TypeDef β := { name := "Environment" }

/-- The type of all furniture. -/
def furnitureType : TypeDef β where
  name := "Furniture"
  isAbstract := true
  fields := [{ name := article, init := .null }]
  methods := [{ name := ⟨"initialize"⟩, body := code .initializeFurniture }]
  rules :=
    [{ reason := Reason.removeElement.symbol, kind := .anterior, body := code .acceptRemoval }]

/-- The type of cabinets. -/
def cabinetType : TypeDef β where
  name := "Cabinet"
  supertype := some "Furniture"
  methods :=
    [{ name := ⟨"initialize"⟩, body := code .initializeCabinet },
      { name := ⟨"propsChanged"⟩, body := code .cabinetChanged }]
  rules :=
    [{ reason := Reason.createElement.symbol, kind := .anterior, body := code .acceptInsertable },
      { reason := Reason.removeElement.symbol, kind := .anterior, body := code .keepOneShelf }]
  check := some (code .checkShelves)

/-- The type of shelves. -/
def shelfType : TypeDef β where
  name := "Shelf"
  supertype := some "Furniture"
  categories := [insertable]
  methods := [{ name := ⟨"initialize"⟩, body := code .initializeShelf }]

/-- **Registers the types of the showroom.** -/
def install : Body β σ Unit := do
  let _ ← Program.call (Op.register environmentType)
  let _ ← Program.call (Op.register (furnitureType code))
  let _ ← Program.call (Op.register (cabinetType code))
  let _ ← Program.call (Op.register (shelfType code))

/-- **The catalog**: it knows the types of articles and passes the width of a cabinet on. -/
def catalog : ProductData β where
  articles := [("CAB-80", "Cabinet"), ("CAB-120", "Cabinet"), ("SHF-01", "Shelf")]
  evaluate := some (code .spreadWidth)

/-- The box of a board that reaches from the origin to its size. -/
def boardBounds (size : Vec3) : Bounds := ⟨.zero, size⟩

/-- The box of a board that is placed somewhere. -/
def boardBoundsAt (size position : Vec3) : Bounds := (boardBounds size).offset position

/-- A board as geometry. -/
def board (size : Vec3) : Geometry β := { bounds := boardBounds size }

/-- The depth of a shelf. -/
def shelfDepth : Float := 0.38

/-- The thickness of a shelf. -/
def shelfThickness : Float := 0.02

/-- The size of a cabinet's body. -/
def cabinetSize : Vec3 := ⟨0.8, 2.0, shelfDepth + shelfThickness⟩

/-- The size of a shelf's board. -/
def shelfSize : Vec3 := ⟨0.8, shelfThickness, shelfDepth⟩

/-- **What a built showroom consists of.** -/
structure Room where
  environment : InstanceId
  cabinet : InstanceId
  shelves : List InstanceId
  deriving DecidableEq, Repr

/-- Adds shelves to a cabinet, one above the other, from the `i`-th on. -/
def addShelves (cabinet : InstanceId) : Nat → Nat → Body β σ (List InstanceId)
  | 0, _ => .pure []
  | count + 1, i => do
    let outcome ← Program.call (Op.addElement cabinet "Shelf" [.str "SHF-01"])
    match outcome.created? with
    | none => addShelves cabinet count (i + 1)
    | some shelf =>
      Program.call (Op.setPosition shelf ⟨0.0, 0.3 * Float.ofNat (i + 1), 0.0⟩)
      Program.call (Op.attachGeometry shelf (board shelfSize))
      return shelf :: (← addShelves cabinet count (i + 1))

/-- **Builds a showroom** with a number of shelves in its cabinet. -/
def build (shelves : Nat) : Body β σ Room := do
  install code
  let environment ← Program.call (Op.instantiate "Environment" none "env" [])
  Program.call (Op.setProductData environment (catalog code))
  let cabinet ← Program.call
    (Op.instantiate "Cabinet" (some environment) "cabinet" [.str "CAB-80"])
  Program.call (Op.attachGeometry cabinet (board cabinetSize))
  return ⟨environment, cabinet, ← addShelves cabinet shelves 0⟩

/-- The number of shelves of a showroom that is built without a wish. -/
def usualShelves : Nat := 2

end ProductModel.Showroom
