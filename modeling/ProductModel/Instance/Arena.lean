import ProductModel.Error
import ProductModel.Instance

/-!
# The arena

All instances of a model, held in slots.  A slot that is freed is used again for the next
instance, the one freed last first, under a new generation; a handle of an earlier generation
finds nothing.  The arena also counts the instances, lists the roots and numbers instances in order
of creation.
-/

namespace ProductModel

/-- **A place for an instance.**  The generation counts how often it was freed. -/
structure Slot (β : Type) where
  generation : UInt32 := 0
  content : Option (Instance β) := none
  deriving Repr

/-- **The instances of a model.** -/
structure Arena (β : Type) where
  slots : List (Slot β) := []
  /-- the vacant slots, the one freed last at the head -/
  free : List Nat := []
  /-- the instances without a father, in order of creation -/
  roots : List InstanceId := []
  /-- the last order number given out -/
  lastOrder : Nat := 0
  /-- the number of instances -/
  live : Nat := 0
  deriving Repr

namespace Arena

variable {β : Type}

instance : Inhabited (Arena β) := ⟨{}⟩

/-- The arena without instances. -/
def empty : Arena β := {}

/-- The number of instances. -/
def size (a : Arena β) : Nat := a.live

/-- The next number in the order of creation.  No number is given out twice. -/
def nextOrder (a : Arena β) : Nat × Arena β :=
  (a.lastOrder + 1, { a with lastOrder := a.lastOrder + 1 })

/-- The number of slots that handles can tell apart. -/
def capacity : Nat := UInt32.size

/-- The handle of a slot in its current generation. -/
def handle (index : Nat) (generation : UInt32) : InstanceId := ⟨UInt32.ofNat index, generation⟩

/-- The slot of a handle, if the handle is of its current generation. -/
def slot? (a : Arena β) (id : InstanceId) : Option (Slot β) :=
  (a.slots[id.slot.toNat]?).filter (·.generation = id.generation)

/-- **The instance of a handle.** -/
def get? (a : Arena β) (id : InstanceId) : Option (Instance β) :=
  (a.slot? id).bind (·.content)

/-- Whether a handle has an instance. -/
def contains (a : Arena β) (id : InstanceId) : Bool := (a.get? id).isSome

/-- **Puts an instance into a slot**: the one freed last, else a new one. -/
def insert (a : Arena β) (i : Instance β) : Except HierarchyError (InstanceId × Arena β) :=
  match a.free with
  | index :: free =>
    let generation := ((a.slots[index]?).map (·.generation)).getD 0
    .ok (handle index generation,
      { a with
        slots := a.slots.modify index fun slot => { slot with content := some i }
        free
        live := a.live + 1 })
  | [] =>
    if capacity ≤ a.slots.length then .error (.arenaFull a.size)
    else .ok (handle a.slots.length 0,
      { a with slots := a.slots ++ [{ content := some i }], live := a.live + 1 })

/-- **Frees the slot of a handle.**  Gives the instance that was there. -/
def remove (a : Arena β) (id : InstanceId) : Option (Instance β × Arena β) :=
  match a.get? id with
  | none => none
  | some i =>
    some (i, { a with
      slots := a.slots.set id.slot.toNat { generation := id.generation + 1 }
      free := id.slot.toNat :: a.free
      roots := a.roots.filter (· ≠ id)
      live := a.live - 1 })

/-- Changes the instance of a handle, if there is one. -/
def modify (a : Arena β) (id : InstanceId) (f : Instance β → Instance β) : Arena β :=
  match a.get? id with
  | none => a
  | some i => { a with slots := a.slots.set id.slot.toNat ⟨id.generation, some (f i)⟩ }

/-- Changes the instances of several handles. -/
def modifyAll (a : Arena β) (ids : List InstanceId) (f : Instance β → Instance β) : Arena β :=
  ids.foldl (fun a id => a.modify id f) a

/-- Lists an instance as a root. -/
def addRoot (a : Arena β) (id : InstanceId) : Arena β := { a with roots := a.roots ++ [id] }

/-- Frees the slots of several handles. -/
def removeAll (a : Arena β) (ids : List InstanceId) : Arena β :=
  ids.foldl (fun a id => match a.remove id with | some (_, a) => a | none => a) a

/-- The error of a handle without an instance. -/
def destroyedError (id : InstanceId) : ModelError := .hierarchy (.destroyed id.text)

/-- The instance of a handle, or the error of a handle that is out of date. -/
def find (a : Arena β) (id : InstanceId) : Except ModelError (Instance β) :=
  match a.get? id with
  | some i => .ok i
  | none => .error (destroyedError id)

end Arena

end ProductModel
