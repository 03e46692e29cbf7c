import ProductModel.Association

/-!
# Symbols

A symbol is a name used as a key: of properties, attributes, methods, rule reasons and
categories.  Two symbols are the same exactly when their labels are, so a symbol is its label.

A program may also number its symbols in order of first use.  `SymbolTable` is that numbering: it
keeps a map in each direction and a count of the numbers.  Only the count of symbols in a summary is
taken from it; everywhere else symbols are compared by their labels.
-/

namespace ProductModel

/-- **A symbol**, identified by its label. -/
structure Symbol where
  label : String
  deriving DecidableEq, Repr, Inhabited

instance : Coe String Symbol := ⟨Symbol.mk⟩

/-- **A source of numbers**, which counts in a word how many it has given out. -/
structure SymbolAllocator where
  issued : UInt64 := 0
  deriving Repr

namespace SymbolAllocator

/-- The greatest number. -/
def lastId : Nat := UInt64.size - 1

/-- The next number, from one on.  No number is greater than `lastId`, so when all of them are used
up, numbers come again. -/
def nextId (a : SymbolAllocator) : Nat × SymbolAllocator :=
  (min (1 + a.issued.toNat) lastId, { issued := a.issued + 1 })

end SymbolAllocator

/-- **Symbols numbered from one** in the order in which they were first interned: the label of
every number, and the number of every label. -/
structure SymbolTable where
  labels : Association Nat String := {}
  ids : Association String Nat := {}
  allocator : SymbolAllocator := {}
  deriving Repr

namespace SymbolTable

/-- The table before anything was interned. -/
def empty : SymbolTable := {}

/-- The number of symbols. -/
def size (t : SymbolTable) : Nat := t.labels.size

/-- The number of a label that was interned before.  Looking up never changes the table. -/
def lookup (t : SymbolTable) (label : String) : Option Nat := t.ids.get? label

/-- Enters a label under the next number, unless it has one by now. -/
def enter (t : SymbolTable) (label : String) : Nat × SymbolTable :=
  match t.ids.get? label with
  | some id => (id, t)
  | none =>
    let (id, allocator) := t.allocator.nextId
    (id, { labels := t.labels.insert id label, ids := t.ids.insert label id, allocator })

/-- **Numbers a label**: with the number it has, or with the next one. -/
def intern (t : SymbolTable) (label : String) : Nat × SymbolTable :=
  match t.lookup label with
  | some id => (id, t)
  | none => t.enter label

/-- The label of a number.  A number that this table never issued is shown as such. -/
def label (t : SymbolTable) (id : Nat) : String := (t.labels.get? id).getD s!"sym:{id}"

/-- Numbers several labels in turn. -/
def internAll (t : SymbolTable) (labels : List String) : SymbolTable :=
  labels.foldl (fun t label => (t.intern label).2) t

end SymbolTable

end ProductModel
