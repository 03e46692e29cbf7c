/-!
# Associations

A finite map as a list of its entries, every key at most once.  A new key goes to the end and an
old one keeps its place, so the entries show the order in which keys came in.

Main statements: looking up after `insert` and `erase`, and the keys after both.
-/

namespace ProductModel

/-- **A finite map from keys to values.** -/
structure Association (κ ν : Type) where
  entries : List (κ × ν) := []
  deriving Repr

namespace Association

variable {κ ν : Type} [DecidableEq κ]

instance : Inhabited (Association κ ν) := ⟨{}⟩

/-- The value of a key in a list of entries. -/
def findEntry (k : κ) : List (κ × ν) → Option ν
  | [] => none
  | (k', v) :: rest => if k' = k then some v else findEntry k rest

/-- The value of a key. -/
def get? (m : Association κ ν) (k : κ) : Option ν := findEntry k m.entries

/-- Whether a key has a value. -/
def contains (m : Association κ ν) (k : κ) : Bool := (m.get? k).isSome

/-- The number of entries. -/
def size (m : Association κ ν) : Nat := m.entries.length

/-- The keys in order. -/
def keys (m : Association κ ν) : List κ := m.entries.map (·.1)

/-- Sets the value of a key in a list of entries. -/
def insertEntry (k : κ) (v : ν) : List (κ × ν) → List (κ × ν)
  | [] => [(k, v)]
  | (k', v') :: rest => if k' = k then (k, v) :: rest else (k', v') :: insertEntry k v rest

/-- Sets the value of a key. -/
def insert (m : Association κ ν) (k : κ) (v : ν) : Association κ ν :=
  ⟨insertEntry k v m.entries⟩

/-- Removes a key from a list of entries. -/
def eraseEntry (k : κ) : List (κ × ν) → List (κ × ν)
  | [] => []
  | (k', v) :: rest => if k' = k then eraseEntry k rest else (k', v) :: eraseEntry k rest

/-- Removes a key. -/
def erase (m : Association κ ν) (k : κ) : Association κ ν := ⟨eraseEntry k m.entries⟩

theorem findEntry_insertEntry_self (k : κ) (v : ν) (es : List (κ × ν)) :
    findEntry k (insertEntry k v es) = some v := by
  induction es with
  | nil => simp [insertEntry, findEntry]
  | cons e rest ih => grind [insertEntry, findEntry]

theorem findEntry_insertEntry_of_ne {k k' : κ} (h : k' ≠ k) (v : ν) (es : List (κ × ν)) :
    findEntry k' (insertEntry k v es) = findEntry k' es := by
  induction es with
  | nil => grind [insertEntry, findEntry]
  | cons e rest ih => grind [insertEntry, findEntry]

theorem findEntry_eraseEntry_self (k : κ) (es : List (κ × ν)) :
    findEntry k (eraseEntry k es) = none := by
  induction es with
  | nil => rfl
  | cons e rest ih => grind [eraseEntry, findEntry]

theorem findEntry_eraseEntry_of_ne {k k' : κ} (h : k' ≠ k) (es : List (κ × ν)) :
    findEntry k' (eraseEntry k es) = findEntry k' es := by
  induction es with
  | nil => rfl
  | cons e rest ih => grind [eraseEntry, findEntry]

/-- A key has the value that was set last. -/
@[simp] theorem get?_insert_self (m : Association κ ν) (k : κ) (v : ν) :
    (m.insert k v).get? k = some v := findEntry_insertEntry_self k v m.entries

/-- Setting a key does not touch the others. -/
theorem get?_insert_of_ne (m : Association κ ν) {k k' : κ} (h : k' ≠ k) (v : ν) :
    (m.insert k v).get? k' = m.get? k' := findEntry_insertEntry_of_ne h v m.entries

/-- A removed key has no value. -/
@[simp] theorem get?_erase_self (m : Association κ ν) (k : κ) : (m.erase k).get? k = none :=
  findEntry_eraseEntry_self k m.entries

/-- Removing a key does not touch the others. -/
theorem get?_erase_of_ne (m : Association κ ν) {k k' : κ} (h : k' ≠ k) :
    (m.erase k).get? k' = m.get? k' := findEntry_eraseEntry_of_ne h m.entries

/-- A key without an entry has no value. -/
theorem findEntry_eq_none {k : κ} {es : List (κ × ν)} (h : k ∉ es.map (·.1)) :
    findEntry k es = none := by
  induction es with
  | nil => rfl
  | cons e es ih =>
    rw [List.map_cons, List.mem_cons, not_or] at h
    rw [findEntry, if_neg (Ne.symm h.1), ih h.2]

theorem get?_eq_none {m : Association κ ν} {k : κ} (h : k ∉ m.keys) : m.get? k = none :=
  findEntry_eq_none h

theorem mem_keys_insertEntry {k k' : κ} (v : ν) (es : List (κ × ν)) :
    k' ∈ (insertEntry k v es).map (·.1) ↔ k' = k ∨ k' ∈ es.map (·.1) := by
  induction es with
  | nil => simp [insertEntry]
  | cons e rest ih => grind [insertEntry]

theorem mem_keys_eraseEntry {k k' : κ} (es : List (κ × ν)) :
    k' ∈ (eraseEntry k es).map (·.1) ↔ k' ≠ k ∧ k' ∈ es.map (·.1) := by
  induction es with
  | nil => simp [eraseEntry]
  | cons e rest ih => grind [eraseEntry]

/-- Setting a key adds it to the keys. -/
theorem mem_keys_insert (m : Association κ ν) {k k' : κ} (v : ν) :
    k' ∈ (m.insert k v).keys ↔ k' = k ∨ k' ∈ m.keys := mem_keys_insertEntry v m.entries

/-- Removing a key takes it from the keys. -/
theorem mem_keys_erase (m : Association κ ν) {k k' : κ} :
    k' ∈ (m.erase k).keys ↔ k' ≠ k ∧ k' ∈ m.keys := mem_keys_eraseEntry m.entries

/-- A new key has its value, and the other keys have theirs. -/
theorem get?_insert_of_none {m : Association κ ν} {k k' : κ} {v v' : ν} (h : m.get? k = none) :
    (m.insert k v).get? k' = some v' ↔ m.get? k' = some v' ∨ k' = k ∧ v' = v := by
  by_cases hk : k' = k
  · rw [hk, get?_insert_self, h]
    simp [eq_comm]
  · rw [get?_insert_of_ne m hk]
    simp [hk]

theorem length_insertEntry_of_none {k : κ} {es : List (κ × ν)} (h : findEntry k es = none) (v : ν) :
    (insertEntry k v es).length = es.length + 1 := by
  induction es with
  | nil => rfl
  | cons e rest ih => grind [insertEntry, findEntry]

/-- A new key makes the map greater by one. -/
theorem size_insert_of_none {m : Association κ ν} {k : κ} (h : m.get? k = none) (v : ν) :
    (m.insert k v).size = m.size + 1 := length_insertEntry_of_none h v

/-- Removing several keys does not touch the others. -/
theorem get?_foldl_erase (ks : List κ) (m : Association κ ν) {k' : κ} (h : k' ∉ ks) :
    (ks.foldl erase m).get? k' = m.get? k' := by
  induction ks generalizing m with
  | nil => rfl
  | cons k ks ih =>
    obtain ⟨hk, hks⟩ := not_or.mp (fun hmem => h (List.mem_cons.mpr hmem))
    rw [List.foldl_cons, ih _ hks, get?_erase_of_ne _ hk]

/-- What is removed with others has no value, as what had none before. -/
theorem get?_foldl_erase_of_mem {ks : List κ} {m : Association κ ν} {k' : κ}
    (h : k' ∈ ks ∨ m.get? k' = none) : (ks.foldl erase m).get? k' = none := by
  induction ks generalizing m with
  | nil => exact h.resolve_left (by simp)
  | cons k ks ih =>
    refine ih ?_
    by_cases hk : k' = k
    · rw [hk]
      exact Or.inr (get?_erase_self m k)
    · rw [get?_erase_of_ne m hk]
      exact h.imp_left fun hmem => (List.mem_cons.mp hmem).resolve_left hk

/-- Removing several keys takes them from the keys. -/
theorem mem_keys_foldl_erase (ks : List κ) (m : Association κ ν) {k' : κ} :
    k' ∈ (ks.foldl erase m).keys ↔ k' ∉ ks ∧ k' ∈ m.keys := by
  induction ks generalizing m with
  | nil => simp
  | cons k ks ih =>
    rw [List.foldl_cons, ih, mem_keys_erase, List.mem_cons, not_or]
    exact ⟨fun ⟨hks, hk, hm⟩ => ⟨⟨hk, hks⟩, hm⟩, fun ⟨⟨hk, hks⟩, hm⟩ => ⟨hks, hk, hm⟩⟩

end Association

end ProductModel
