import ProductModel.Property.Definition

/-!
# Property tables

The properties that an instance declares, with the order in which they are presented: by slot, and
in order of declaration where slots agree.

## Design

Entries are kept in order of declaration and every key has one entry, so the presentation order is
a stable sort by slot, and two tables are the same exactly when their lists of entries are.

Slots are words of 32 bits and are counted up without a check: behind the greatest word comes the
least one.
-/

namespace ProductModel

/-- **A declared property** and the slot at which it is presented. -/
structure PropertyEntry where
  definition : PropertyDef
  slot : Int32
  /-- the number of declarations before this one -/
  sequence : Nat
  deriving Repr

namespace PropertyEntry

/-- The key of an entry. -/
def key (e : PropertyEntry) : Symbol := e.definition.key

/-- Same definition at the same place. -/
def same (a b : PropertyEntry) : Bool :=
  a.definition == b.definition && a.slot == b.slot && a.sequence == b.sequence

instance : BEq PropertyEntry := ⟨same⟩

end PropertyEntry

/-- **The declared properties of an instance**, in order of declaration. -/
structure PropertyTable where
  entries : List PropertyEntry := []
  /-- the number of declarations so far -/
  declared : Nat := 0
  deriving Repr, Inhabited

namespace PropertyTable

/-- The table without properties. -/
def empty : PropertyTable := {}

/-- Same properties in the same order. -/
def same (a b : PropertyTable) : Bool := a.entries == b.entries && a.declared == b.declared

instance : BEq PropertyTable := ⟨same⟩

/-- The entry of a key. -/
def find? (t : PropertyTable) (key : Symbol) : Option PropertyEntry :=
  t.entries.find? (·.key == key)

/-- The definition of a key. -/
def get? (t : PropertyTable) (key : Symbol) : Option PropertyDef :=
  (t.find? key).map (·.definition)

/-- Whether a key is declared. -/
def contains (t : PropertyTable) (key : Symbol) : Bool := t.entries.any (·.key == key)

/-- The number of declared properties. -/
def size (t : PropertyTable) : Nat := t.entries.length

/-- The slot behind all slots in use, unless the greatest word is one of them. -/
def nextSlot (t : PropertyTable) : Int32 :=
  match (t.entries.map (·.slot)).max? with
  | some greatest => greatest + 1
  | none => 0

/-- **The keys in presentation order.** -/
def keys (t : PropertyTable) : List Symbol :=
  (t.entries.mergeSort (fun a b => a.slot ≤ b.slot)).map (·.key)

/-- Changes the entry of one key. -/
def modify (t : PropertyTable) (key : Symbol) (f : PropertyEntry → PropertyEntry) :
    PropertyTable :=
  { t with entries := t.entries.map fun e => if e.key == key then f e else e }

/-- The slot of a new definition for a key that is declared already.  An explicit position is
taken; a definition that gives up its explicit position moves behind all others; else the property
keeps its place. -/
def slotAfter (t : PropertyTable) (old : PropertyEntry) (d : PropertyDef) : Int32 :=
  match d.position.slot? with
  | some slot => slot
  | none => if old.definition.position.slot?.isSome then t.nextSlot else old.slot

/-- **Declares a property**, or replaces the definition of its key.  Tells whether anything
changed. -/
def setup (t : PropertyTable) (d : PropertyDef) : Bool × PropertyTable :=
  match t.find? d.key with
  | some old =>
    if old.definition == d then (false, t)
    else
      let slot := t.slotAfter old d
      (true, t.modify d.key fun e => { e with definition := d, slot })
  | none =>
    let slot := d.position.slot?.getD t.nextSlot
    (true, { entries := t.entries ++ [⟨d, slot, t.declared⟩], declared := t.declared + 1 })

/-- **Removes a property.**  Gives the definition that was removed. -/
def remove (t : PropertyTable) (key : Symbol) : Option PropertyDef × PropertyTable :=
  (t.get? key, { t with entries := t.entries.filter (·.key != key) })

/-- Changes the state of a property. -/
def setState (t : PropertyTable) (key : Symbol) (state : PropertyState) : PropertyTable :=
  t.modify key fun e => { e with definition := { e.definition with state } }

end PropertyTable

end ProductModel
