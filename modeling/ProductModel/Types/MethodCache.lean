import ProductModel.Types.Registry

/-!
# Remembered method lookups

A cache remembers, for a type and a name, the method that the registry found and the epoch at
which it did.  An answer of another epoch is not used.  Counters tell how often the cache knew the
answer.
-/

namespace ProductModel

/-- The method of a name and the type that declares it, if there is one. -/
abbrev FoundMethod (β : Type) := Option (TypeId × Method β)

/-- **A remembered lookup.** -/
structure CacheEntry (β : Type) where
  epoch : Nat
  found : FoundMethod β
  deriving Repr

/-- The counters of a cache. -/
structure CacheStats where
  hits : Nat
  misses : Nat
  entries : Nat
  deriving DecidableEq, Repr

/-- **A cache of method lookups.** -/
structure MethodCache (β : Type) where
  entries : Association (TypeId × Symbol) (CacheEntry β) := {}
  hits : Nat := 0
  misses : Nat := 0
  deriving Repr

namespace MethodCache

variable {β : Type}

instance : Inhabited (MethodCache β) := ⟨{}⟩

/-- The counters. -/
def stats (c : MethodCache β) : CacheStats := ⟨c.hits, c.misses, c.entries.size⟩

/-- The remembered lookup, if it is of the current epoch. -/
def current? (c : MethodCache β) (types : Registry β) (id : TypeId) (name : Symbol) :
    Option (FoundMethod β) :=
  match c.entries.get? (id, name) with
  | some entry => if entry.epoch = types.epoch then some entry.found else none
  | none => none

/-- **Looks up a method** and remembers the answer. -/
def lookup (c : MethodCache β) (types : Registry β) (id : TypeId) (name : Symbol) :
    FoundMethod β × MethodCache β :=
  match c.current? types id name with
  | some found => (found, { c with hits := c.hits + 1 })
  | none =>
    let found := types.findMethod id name
    (found, { c with
      entries := c.entries.insert (id, name) ⟨types.epoch, found⟩
      misses := c.misses + 1 })

/-- Forgets all answers; the counters stay. -/
def clear (c : MethodCache β) : MethodCache β := { c with entries := {} }

end MethodCache

end ProductModel
