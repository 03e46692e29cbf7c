import ProductModel.Proofs.Registry.Hierarchy
import ProductModel.Types.MethodCache

/-!
# Remembered lookups are right

Answers of the registry stay in a cache when types change, at whatever level of the hierarchy, and
are told from present ones by their epoch alone.  Every accepted change of the types begins a new
epoch (`Registry.epoch_of_change`), so a remembered answer of the present epoch is what the registry
would answer now (`MethodCache.Sound`).

`MethodCache.faithful_after` follows one registry and one cache through every history of changes
and lookups.
-/

namespace ProductModel

variable {β : Type}

/-! ## Epochs -/

namespace Registry

variable {r r' : Registry β} {id : TypeId}

/-- **An accepted change begins a new epoch.** -/
theorem epoch_of_change {c : TypeChange β} (h : r.change c = .ok (id, r')) :
    r'.epoch = r.epoch + 1 := by
  cases c with
  | register d =>
    obtain ⟨supertype, operators, -, -, -, -, rfl⟩ := register_cases h
    rfl
  | redefine typeName d =>
    obtain ⟨supertype, operators, -, -, -, -, -, rfl⟩ := redefine_cases h
    rfl

theorem epoch_lt_of_change {c : TypeChange β} (h : r.change c = .ok (id, r')) :
    r.epoch < r'.epoch := by
  rw [epoch_of_change h]
  exact Nat.lt_succ_self _

end Registry

/-! ## What a cache answers -/

namespace MethodCache

variable {c : MethodCache β} {types types' : Registry β}

/-- A lookup finds what is remembered, or what there is. -/
theorem lookup_fst (c : MethodCache β) (types : Registry β) (type : TypeId) (name : Symbol) :
    (c.lookup types type name).1 =
      (c.current? types type name).getD (types.findMethod type name) := by
  unfold lookup
  cases c.current? types type name <;> rfl

/-- **A lookup does not change what others find.** -/
theorem lookup_lookup (c : MethodCache β) (types : Registry β) (type type' : TypeId)
    (name name' : Symbol) :
    ((c.lookup types type name).2.lookup types type' name').1 =
      (c.lookup types type' name').1 := by
  rw [lookup_fst, lookup_fst]
  cases hknown : c.current? types type name with
  | some found =>
    have hsame : (c.lookup types type name).2.entries = c.entries := by rw [lookup, hknown]
    have hcurrent : (c.lookup types type name).2.current? types type' name' =
        c.current? types type' name' := by rw [current?, current?, hsame]
    rw [hcurrent]
  | none =>
    have hafter : (c.lookup types type name).2.entries =
        c.entries.insert (type, name) ⟨types.epoch, types.findMethod type name⟩ := by
      rw [lookup, hknown]
    -- The same lookup finds what was just remembered; any other does not meet it.
    by_cases hkey : (type', name') = (type, name)
    · obtain ⟨rfl, rfl⟩ := Prod.mk.inj hkey
      have hnow : (c.lookup types type' name').2.current? types type' name' =
          some (types.findMethod type' name') := by
        rw [current?, hafter, Association.get?_insert_self]
        simp
      rw [hnow, hknown]
      rfl
    · have hcurrent : (c.lookup types type name).2.current? types type' name' =
          c.current? types type' name' := by
        rw [current?, current?, hafter, Association.get?_insert_of_ne _ hkey]
      rw [hcurrent]

/-- **What is remembered** is of no later epoch, and what is of the present one is what the registry
finds. -/
structure Sound (c : MethodCache β) (types : Registry β) : Prop where
  past : ∀ {key entry}, c.entries.get? key = some entry → entry.epoch ≤ types.epoch
  present : ∀ {key entry}, c.entries.get? key = some entry → entry.epoch = types.epoch →
    entry.found = types.findMethod key.1 key.2

/-- A cache that remembers nothing is right. -/
theorem sound_of_entries_eq (h : c.entries = {}) : c.Sound types where
  past hget := by
    rw [h] at hget
    cases hget
  present hget := by
    rw [h] at hget
    cases hget

namespace Sound

/-- **A lookup through the cache finds what the registry finds.** -/
theorem lookup_eq (h : c.Sound types) (type : TypeId) (name : Symbol) :
    (c.lookup types type name).1 = types.findMethod type name := by
  rw [lookup_fst]
  unfold current?
  cases hget : c.entries.get? (type, name) with
  | none => rfl
  | some entry =>
    dsimp only
    split
    · rename_i hepoch
      exact h.present hget hepoch
    · rfl

/-- The counters do not matter. -/
theorem congr (h : c.Sound types) {c' : MethodCache β} (heq : c'.entries = c.entries) :
    c'.Sound types where
  past hget := h.past (heq ▸ hget)
  present hget := h.present (heq ▸ hget)

theorem lookup (h : c.Sound types) (type : TypeId) (name : Symbol) :
    (c.lookup types type name).2.Sound types := by
  unfold MethodCache.lookup
  cases c.current? types type name with
  | some found => exact h.congr rfl
  | none =>
    -- The new entry is of the present epoch and is what the registry finds.
    refine ⟨fun {key entry} hget => ?_, fun {key entry} hget hepoch => ?_⟩
    · by_cases hkey : key = (type, name)
      · rw [hkey, Association.get?_insert_self] at hget
        cases hget
        exact Nat.le_refl _
      · rw [Association.get?_insert_of_ne _ hkey] at hget
        exact h.past hget
    · by_cases hkey : key = (type, name)
      · rw [hkey, Association.get?_insert_self] at hget
        cases hget
        rw [hkey]
      · rw [Association.get?_insert_of_ne _ hkey] at hget
        exact h.present hget hepoch

/-- **In a later epoch nothing that is remembered counts.** -/
theorem later (h : c.Sound types) (hlt : types.epoch < types'.epoch) : c.Sound types' where
  past hget := Nat.le_of_lt (Nat.lt_of_le_of_lt (h.past hget) hlt)
  present hget hepoch := absurd (hepoch ▸ h.past hget) (Nat.not_le.mpr hlt)

theorem changed (h : c.Sound types) (change : TypeChange β) : c.Sound (types.changed change) := by
  unfold Registry.changed
  cases hchange : types.change change with
  | error err => exact h
  | ok result =>
    obtain ⟨id, types'⟩ := result
    exact h.later (Registry.epoch_lt_of_change hchange)

end Sound

/-! ## Histories of a registry and a cache -/

/-- **What is done** with a registry and a cache of its answers. -/
inductive Use (β : Type) where
  | change (c : TypeChange β)
  | lookup (type : TypeId) (name : Symbol)
  | clear

/-- Whether a method is looked up. -/
def Use.isLookup : Use β → Bool
  | .lookup _ _ => true
  | _ => false

/-- **A registry and a cache after a history**, what was done last first.  A change that is refused
leaves both. -/
def after : List (Use β) → Registry β × MethodCache β
  | [] => (.empty, {})
  | use :: uses =>
    let (types, c) := after uses
    match use with
    | .change change => (types.changed change, c)
    | .lookup type name => (types, (c.lookup types type name).2)
    | .clear => (types, c.clear)

/-- **A cache that goes unnoticed** but for its counters, after a number of lookups. -/
structure Faithful (types : Registry β) (c : MethodCache β) (lookups : Nat) : Prop where
  lookup_eq : ∀ type name, (c.lookup types type name).1 = types.findMethod type name
  counted : c.hits + c.misses = lookups

theorem sound_after (uses : List (Use β)) : (after uses).2.Sound (after uses).1 := by
  induction uses with
  | nil => exact sound_of_entries_eq rfl
  | cons use uses ih =>
    cases use with
    | change change => exact ih.changed change
    | lookup type name => exact ih.lookup type name
    | clear => exact sound_of_entries_eq rfl

/-- A lookup counts as a hit or as a miss. -/
theorem hits_add_misses_lookup (c : MethodCache β) (types : Registry β) (type : TypeId)
    (name : Symbol) : (c.lookup types type name).2.hits + (c.lookup types type name).2.misses =
      c.hits + c.misses + 1 := by
  unfold lookup
  cases c.current? types type name with
  | some found => exact Nat.add_right_comm _ _ _
  | none => exact (Nat.add_assoc _ _ _).symm

theorem counted_after (uses : List (Use β)) :
    (after uses).2.hits + (after uses).2.misses = uses.countP (·.isLookup) := by
  induction uses with
  | nil => rfl
  | cons use uses ih =>
    rw [List.countP_cons, ← ih]
    cases use with
    | change change => rfl
    | lookup type name => exact hits_add_misses_lookup _ _ type name
    | clear => rfl

/-- **After every history a cache answers as the registry does**, and has counted all lookups. -/
theorem faithful_after (uses : List (Use β)) :
    Faithful (after uses).1 (after uses).2 (uses.countP (·.isLookup)) where
  lookup_eq := (sound_after uses).lookup_eq
  counted := counted_after uses

end MethodCache

end ProductModel
