import ProductModel.Instance.Arena

/-!
# Lookups in an arena

What `Arena.get?` finds after each of the operations that change an arena.  A handle is present
exactly when its slot is occupied in the handle's generation (`get?_eq_some_iff`), so every
statement here is one about a list of slots.

`Arena.Stored` says what the free list has to do with the slots.  It is what insertion needs in
order to put an instance where no present instance is.
-/

namespace ProductModel

namespace InstanceId

/-- A handle is its slot and its generation. -/
theorem eq_of_slot_of_generation {a b : InstanceId} (hs : a.slot.toNat = b.slot.toNat)
    (hg : a.generation = b.generation) : a = b := by
  cases a
  cases b
  simp only [mk.injEq] at *
  exact ⟨UInt32.toNat_inj.mp hs, hg⟩

/-- A list without an entry has none to lose. -/
theorem filter_ne_of_not_mem {x : InstanceId} {ys : List InstanceId} (h : x ∉ ys) :
    ys.filter (· ≠ x) = ys := by
  refine List.filter_eq_self.mpr fun y hy => ?_
  simp only [ne_eq, decide_not, Bool.not_eq_true', decide_eq_false_iff_not]
  rintro rfl
  exact h hy

end InstanceId

namespace Arena

variable {β : Type} {a a' : Arena β} {id : InstanceId} {i : Instance β}

/-- **The slots that are free** are vacant, each is listed once, and there are no more slots than
handles can tell apart. -/
structure Stored (a : Arena β) : Prop where
  fits : a.slots.length ≤ capacity
  vacant : ∀ index ∈ a.free, ∃ g, a.slots[index]? = some ⟨g, none⟩
  nodup : a.free.Nodup

theorem stored_empty : (empty : Arena β).Stored where
  fits := Nat.zero_le _
  vacant := by
    intro index h
    cases h
  nodup := List.nodup_nil

/-- **A handle is present** exactly when its slot is occupied in its generation. -/
theorem get?_eq_some_iff :
    a.get? id = some i ↔ a.slots[id.slot.toNat]? = some ⟨id.generation, some i⟩ := by
  unfold get? slot?
  cases h : a.slots[id.slot.toNat]? with
  | none => simp
  | some s =>
    obtain ⟨g, content⟩ := s
    by_cases hg : g = id.generation
    · simp [Option.filter, hg]
    · simp [Option.filter, hg]

@[simp] theorem get?_empty (id : InstanceId) : (empty : Arena β).get? id = none := by
  apply Option.eq_none_iff_forall_ne_some.mpr
  intro i hi
  rw [get?_eq_some_iff] at hi
  simp [empty] at hi

theorem contains_eq_true_iff : a.contains id = true ↔ ∃ i, a.get? id = some i := by
  rw [contains, Option.isSome_iff_exists]

/-- Two arenas in which the same slots hold the same find the same. -/
theorem get?_congr (h : a'.slots = a.slots) (id : InstanceId) : a'.get? id = a.get? id := by
  unfold get? slot?
  rw [h]

/-- What a slot that is replaced by another content in its generation holds. -/
theorem get?_eq_ite_of_slots {a a' : Arena β} {content : Option (Instance β)} {g : UInt32}
    (hslot : ∃ c, a.slots[id.slot.toNat]? = some ⟨id.generation, c⟩)
    (hset : a'.slots = a.slots.set id.slot.toNat ⟨g, content⟩)
    (hg : content = none ∨ g = id.generation) (y : InstanceId) :
    a'.get? y = if y = id then content else a.get? y := by
  obtain ⟨c, hc⟩ := hslot
  have hlt : id.slot.toNat < a.slots.length := by
    rw [List.getElem?_eq_some_iff] at hc
    exact hc.1
  apply Option.ext
  intro j
  rw [get?_eq_some_iff, hset]
  -- A handle of the same slot is the same one or one of another generation.
  by_cases hs : y.slot.toNat = id.slot.toNat
  · rw [hs, List.getElem?_set_self hlt]
    by_cases hy : y = id
    · subst hy
      rw [if_pos rfl]
      rcases hg with rfl | rfl <;> simp
    · rw [if_neg hy, get?_eq_some_iff, hs, hc]
      have hne : id.generation ≠ y.generation := fun h =>
        hy (InstanceId.eq_of_slot_of_generation hs h.symm)
      rcases hg with rfl | rfl <;> simp [hne]
  · rw [List.getElem?_set_ne (Ne.symm hs), if_neg (fun h => hs (by rw [h])), get?_eq_some_iff]

/-! ### Changing an instance -/

@[simp] theorem roots_modify (f : Instance β → Instance β) :
    (a.modify id f).roots = a.roots := by
  unfold modify
  split <;> rfl

@[simp] theorem free_modify (f : Instance β → Instance β) : (a.modify id f).free = a.free := by
  unfold modify
  split <;> rfl

@[simp] theorem lastOrder_modify (f : Instance β → Instance β) :
    (a.modify id f).lastOrder = a.lastOrder := by
  unfold modify
  split <;> rfl

@[simp] theorem size_modify (f : Instance β → Instance β) : (a.modify id f).size = a.size := by
  unfold modify
  split <;> rfl

@[simp] theorem length_slots_modify (f : Instance β → Instance β) :
    (a.modify id f).slots.length = a.slots.length := by
  unfold modify
  split
  · rfl
  · rw [List.length_set]

/-- **Changing an instance** changes it and no other one. -/
theorem get?_modify (f : Instance β → Instance β) (y : InstanceId) :
    (a.modify id f).get? y = if y = id then (a.get? id).map f else a.get? y := by
  unfold modify
  cases h : a.get? id with
  | none =>
    by_cases hy : y = id
    · rw [if_pos hy, hy, h]
      rfl
    · rw [if_neg hy]
  | some i =>
    exact get?_eq_ite_of_slots ⟨_, get?_eq_some_iff.mp h⟩ rfl (Or.inr rfl) y

theorem modify_of_get?_eq_none (h : a.get? id = none) (f : Instance β → Instance β) :
    a.modify id f = a := by
  unfold modify
  rw [h]

theorem modify_of_get?_eq_some (h : a.get? id = some i) (f : Instance β → Instance β) :
    a.modify id f = { a with slots := a.slots.set id.slot.toNat ⟨id.generation, some (f i)⟩ } := by
  unfold modify
  rw [h]

/-- Only what a change makes of the instance that is there matters. -/
theorem modify_congr {f g : Instance β → Instance β} (hi : a.get? id = some i) (h : f i = g i) :
    a.modify id f = a.modify id g := by
  unfold modify
  rw [hi]
  simp only [h]

theorem get?_modify_self (f : Instance β → Instance β) :
    (a.modify id f).get? id = (a.get? id).map f := by
  rw [get?_modify, if_pos rfl]

theorem get?_modify_of_ne {y : InstanceId} (h : y ≠ id) (f : Instance β → Instance β) :
    (a.modify id f).get? y = a.get? y := by
  rw [get?_modify, if_neg h]

/-- An instance of which a part is found as before was there before. -/
theorem exists_get?_of_map_eq {γ : Type} {part : Instance β → γ}
    (h : (a'.get? id).map part = (a.get? id).map part) (hi : a.get? id = some i) :
    ∃ j, a'.get? id = some j ∧ part j = part i := by
  rw [hi] at h
  exact Option.map_eq_some_iff.mp h

/-- **A part of instances that a change leaves alone** is found as before. -/
theorem map_get?_modify {γ : Type} {f : Instance β → Instance β} (part : Instance β → γ)
    (h : ∀ i, a.get? id = some i → part (f i) = part i) (y : InstanceId) :
    ((a.modify id f).get? y).map part = (a.get? y).map part := by
  rw [get?_modify]
  split
  · rename_i hy
    rw [hy]
    cases hi : a.get? id with
    | none => rfl
    | some i => exact congrArg some (h i hi)
  · rfl

theorem Stored.modify (h : a.Stored) (f : Instance β → Instance β) : (a.modify id f).Stored := by
  refine ⟨by rw [length_slots_modify]; exact h.fits, ?_, by rw [free_modify]; exact h.nodup⟩
  intro index hindex
  rw [free_modify] at hindex
  obtain ⟨g, hg⟩ := h.vacant index hindex
  refine ⟨g, ?_⟩
  unfold Arena.modify
  cases hi : a.get? id with
  | none => exact hg
  | some i =>
    have hne : id.slot.toNat ≠ index := by
      intro he
      rw [get?_eq_some_iff, he, hg] at hi
      simp at hi
    rw [List.getElem?_set_ne hne]
    exact hg

theorem modifyAll_cons (ids : List InstanceId) (f : Instance β → Instance β) :
    a.modifyAll (id :: ids) f = (a.modify id f).modifyAll ids f := rfl

@[simp] theorem roots_modifyAll (ids : List InstanceId) (f : Instance β → Instance β) :
    (a.modifyAll ids f).roots = a.roots := by
  induction ids generalizing a with
  | nil => rfl
  | cons id ids ih => rw [modifyAll_cons, ih, roots_modify]

@[simp] theorem lastOrder_modifyAll (ids : List InstanceId) (f : Instance β → Instance β) :
    (a.modifyAll ids f).lastOrder = a.lastOrder := by
  induction ids generalizing a with
  | nil => rfl
  | cons id ids ih => rw [modifyAll_cons, ih, lastOrder_modify]

@[simp] theorem size_modifyAll (ids : List InstanceId) (f : Instance β → Instance β) :
    (a.modifyAll ids f).size = a.size := by
  induction ids generalizing a with
  | nil => rfl
  | cons id ids ih => rw [modifyAll_cons, ih, size_modify]

theorem Stored.modifyAll (h : a.Stored) (ids : List InstanceId) (f : Instance β → Instance β) :
    (a.modifyAll ids f).Stored := by
  induction ids generalizing a with
  | nil => exact h
  | cons id ids ih => exact ih (h.modify f)

/-- **Changing several instances**, when changing one twice is changing it once. -/
theorem get?_modifyAll {f : Instance β → Instance β} (hf : ∀ i, f (f i) = f i)
    (ids : List InstanceId) (y : InstanceId) :
    (a.modifyAll ids f).get? y = if y ∈ ids then (a.get? y).map f else a.get? y := by
  induction ids generalizing a with
  | nil => simp [modifyAll]
  | cons id ids ih =>
    rw [modifyAll_cons, ih, get?_modify]
    have htwice : f ∘ f = f := funext hf
    by_cases hy : y ∈ ids
    · by_cases hid : y = id <;> simp [hy, hid, htwice]
    · by_cases hid : y = id <;> simp [hy, hid, htwice]

/-! ### Numbering and listing -/

@[simp] theorem get?_nextOrder (y : InstanceId) : a.nextOrder.2.get? y = a.get? y :=
  get?_congr rfl y

theorem Stored.nextOrder (h : a.Stored) : a.nextOrder.2.Stored := ⟨h.fits, h.vacant, h.nodup⟩

@[simp] theorem get?_addRoot (y : InstanceId) : (a.addRoot id).get? y = a.get? y :=
  get?_congr rfl y

theorem Stored.addRoot (h : a.Stored) : (a.addRoot id).Stored := ⟨h.fits, h.vacant, h.nodup⟩

/-! ### Insertion -/

/-- The handle of a slot that there is names this slot. -/
theorem slot_handle {index : Nat} (h : index < capacity) (g : UInt32) :
    (handle index g).slot.toNat = index := by
  unfold handle
  exact UInt32.toNat_ofNat_of_lt' h

/-- **Where an instance is put**: into the slot freed last, or into a new one. -/
theorem insert_cases (h : a.Stored) (hins : a.insert i = .ok (id, a')) :
    (∃ index free g, a.free = index :: free ∧ a.slots[index]? = some ⟨g, none⟩ ∧
        index < capacity ∧ id = handle index g ∧
        a' = { a with slots := a.slots.set index ⟨g, some i⟩, free, live := a.live + 1 }) ∨
      (a.free = [] ∧ a.slots.length < capacity ∧ id = handle a.slots.length 0 ∧
        a' = { a with slots := a.slots ++ [⟨0, some i⟩], live := a.live + 1 }) := by
  unfold insert at hins
  cases hfree : a.free with
  | nil =>
    rw [hfree] at hins
    simp only at hins
    split at hins
    · cases hins
    · rename_i hcap
      simp only [Except.ok.injEq, Prod.mk.injEq] at hins
      obtain ⟨rfl, rfl⟩ := hins
      exact Or.inr ⟨rfl, Nat.lt_of_not_le hcap, rfl, rfl⟩
  | cons index free =>
    rw [hfree] at hins
    simp only [Except.ok.injEq, Prod.mk.injEq] at hins
    obtain ⟨rfl, rfl⟩ := hins
    obtain ⟨g, hg⟩ := h.vacant index (by rw [hfree]; exact List.mem_cons_self)
    have hlen : index < a.slots.length := (List.getElem?_eq_some_iff.mp hg).1
    -- The slot keeps its generation, which is known to be `g`.
    have hset : a.slots.modify index (fun slot => { slot with content := some i }) =
        a.slots.set index ⟨g, some i⟩ := by
      apply List.ext_getElem?
      intro k
      by_cases hk : index = k
      · rw [← hk, List.getElem?_modify_eq, List.getElem?_set_self hlen, hg]
        rfl
      · rw [List.getElem?_modify_ne _ _ hk, List.getElem?_set_ne hk]
    refine Or.inl ⟨index, free, g, rfl, hg, Nat.lt_of_lt_of_le hlen h.fits, ?_, ?_⟩
    · rw [hg]
      rfl
    · rw [hset]

/-- What an arena with one more slot finds. -/
theorem get?_of_slots_append (hlt : a.slots.length < capacity)
    (happ : a'.slots = a.slots ++ [⟨0, some i⟩]) (y : InstanceId) :
    a'.get? y = if y = handle a.slots.length 0 then some i else a.get? y := by
  have hslot := slot_handle hlt 0
  apply Option.ext
  intro j
  rw [get?_eq_some_iff, happ]
  by_cases hy : y = handle a.slots.length 0
  · rw [if_pos hy, hy, hslot, List.getElem?_append_right (Nat.le_refl _)]
    simp [handle]
  · rw [if_neg hy, get?_eq_some_iff, List.getElem?_append]
    split
    · rfl
    · rename_i hge
      rw [List.getElem?_eq_none (Nat.le_of_not_lt hge)]
      by_cases he : y.slot.toNat = a.slots.length
      · have hg : (0 : UInt32) ≠ y.generation := fun hg =>
          hy (InstanceId.eq_of_slot_of_generation (by rw [hslot, he]) hg.symm)
        simp [he, hg]
      · rw [List.getElem?_eq_none (by simp only [List.length_singleton]; omega)]

/-- **A new handle** was not present before. -/
theorem get?_eq_none_of_insert (h : a.Stored) (hins : a.insert i = .ok (id, a')) :
    a.get? id = none := by
  apply Option.eq_none_iff_forall_ne_some.mpr
  intro j hj
  rw [get?_eq_some_iff] at hj
  rcases insert_cases h hins with ⟨index, free, g, -, hg, hlt, rfl, -⟩ | ⟨-, hlt, rfl, -⟩
  · rw [slot_handle hlt, hg] at hj
    simp at hj
  · rw [slot_handle hlt, List.getElem?_eq_none (Nat.le_refl _)] at hj
    cases hj

/-- **Insertion** makes the new handle present and changes nothing about the others. -/
theorem get?_insert (h : a.Stored) (hins : a.insert i = .ok (id, a')) (y : InstanceId) :
    a'.get? y = if y = id then some i else a.get? y := by
  rcases insert_cases h hins with ⟨index, free, g, -, hg, hlt, rfl, rfl⟩ | ⟨-, hlt, rfl, rfl⟩
  · have hslot := slot_handle hlt g
    exact get?_eq_ite_of_slots ⟨none, by rw [hslot, hg]; rfl⟩ (by rw [hslot]; rfl) (Or.inr rfl) y
  · exact get?_of_slots_append hlt rfl y

theorem roots_of_insert (h : a.Stored) (hins : a.insert i = .ok (id, a')) :
    a'.roots = a.roots := by
  rcases insert_cases h hins with ⟨_, _, _, _, _, _, _, rfl⟩ | ⟨_, _, _, rfl⟩ <;> rfl

theorem lastOrder_of_insert (h : a.Stored) (hins : a.insert i = .ok (id, a')) :
    a'.lastOrder = a.lastOrder := by
  rcases insert_cases h hins with ⟨_, _, _, _, _, _, _, rfl⟩ | ⟨_, _, _, rfl⟩ <;> rfl

theorem Stored.insert (h : a.Stored) (hins : a.insert i = .ok (id, a')) : a'.Stored := by
  rcases insert_cases h hins with ⟨index, free, g, hfree, hg, hlt, -, rfl⟩ | ⟨hfree, hlt, -, rfl⟩
  · have hnodup := h.nodup
    rw [hfree, List.nodup_cons] at hnodup
    refine ⟨by rw [List.length_set]; exact h.fits, ?_, hnodup.2⟩
    -- The slot that is taken was listed once, so the others stay vacant.
    intro k hk
    obtain ⟨gk, hgk⟩ := h.vacant k (by rw [hfree]; exact List.mem_cons_of_mem _ hk)
    have hne : index ≠ k := fun he => hnodup.1 (he ▸ hk)
    exact ⟨gk, by rw [List.getElem?_set_ne hne, hgk]⟩
  · refine ⟨?_, ?_, ?_⟩
    · simp only [List.length_append, List.length_singleton]
      omega
    · intro k hk
      simp only [hfree] at hk
      cases hk
    · simp only [hfree]
      exact List.nodup_nil

/-! ### Removal -/

/-- The arena without an instance, which need not be there. -/
def without (a : Arena β) (id : InstanceId) : Arena β :=
  match a.remove id with
  | some (_, a) => a
  | none => a

theorem removeAll_cons (ids : List InstanceId) :
    a.removeAll (id :: ids) = (a.without id).removeAll ids := rfl

theorem without_of_get?_eq_none (h : a.get? id = none) : a.without id = a := by
  unfold without remove
  rw [h]

theorem without_of_get?_eq_some (h : a.get? id = some i) :
    a.without id = { a with
      slots := a.slots.set id.slot.toNat { generation := id.generation + 1 }
      free := id.slot.toNat :: a.free
      roots := a.roots.filter (· ≠ id)
      live := a.live - 1 } := by
  unfold without remove
  rw [h]

/-- **Removal** takes an instance away and changes nothing about the others. -/
theorem get?_without (y : InstanceId) :
    (a.without id).get? y = if y = id then none else a.get? y := by
  cases h : a.get? id with
  | none =>
    rw [without_of_get?_eq_none h]
    split
    · rename_i hy
      rw [hy, h]
    · rfl
  | some i =>
    rw [without_of_get?_eq_some h]
    exact get?_eq_ite_of_slots ⟨_, get?_eq_some_iff.mp h⟩ rfl (Or.inl rfl) y

/-- **Changing an instance and removing one** can be done in any order. -/
theorem without_modify (x y : InstanceId) (f : Instance β → Instance β) :
    (a.modify x f).without y = (a.without y).modify x f := by
  cases hx : a.get? x with
  | none =>
    have habsent : (a.without y).get? x = none := by
      rw [get?_without, hx]
      split <;> rfl
    rw [modify_of_get?_eq_none hx, modify_of_get?_eq_none habsent]
  | some i =>
    cases hy : a.get? y with
    | none =>
      have hne : y ≠ x := by
        rintro rfl
        rw [hx] at hy
        cases hy
      have habsent : (a.modify x f).get? y = none := by rw [get?_modify_of_ne hne, hy]
      rw [without_of_get?_eq_none habsent, without_of_get?_eq_none hy]
    | some j =>
      by_cases hxy : x = y
      · -- What is removed is gone, whatever it was changed into.
        subst hxy
        have hafter : (a.modify x f).get? x = some (f i) := by rw [get?_modify_self, hx]; rfl
        have habsent : (a.without x).get? x = none := by rw [get?_without, if_pos rfl]
        rw [without_of_get?_eq_some hafter, modify_of_get?_eq_none habsent,
          without_of_get?_eq_some hx, modify_of_get?_eq_some hx]
        simp only [List.set_set]
      · -- Two instances that are there take two slots.
        have hslots : x.slot.toNat ≠ y.slot.toNat := by
          intro hs
          have hslot := get?_eq_some_iff.mp hx
          rw [hs, get?_eq_some_iff.mp hy] at hslot
          simp only [Option.some.injEq, Slot.mk.injEq] at hslot
          exact hxy (InstanceId.eq_of_slot_of_generation hs hslot.1.symm)
        have hafter : (a.modify x f).get? y = some j := by
          rw [get?_modify_of_ne (Ne.symm hxy), hy]
        have hthere : (a.without y).get? x = some i := by rw [get?_without, if_neg hxy, hx]
        rw [without_of_get?_eq_some hafter, modify_of_get?_eq_some hthere,
          without_of_get?_eq_some hy, modify_of_get?_eq_some hx]
        simp only [List.set_comm _ _ hslots]

theorem lastOrder_without : (a.without id).lastOrder = a.lastOrder := by
  cases h : a.get? id with
  | none => rw [without_of_get?_eq_none h]
  | some i => rw [without_of_get?_eq_some h]

theorem Stored.without (h : a.Stored) : (a.without id).Stored := by
  cases hi : a.get? id with
  | none =>
    rw [without_of_get?_eq_none hi]
    exact h
  | some i =>
    have hslot := get?_eq_some_iff.mp hi
    have hlt : id.slot.toNat < a.slots.length := (List.getElem?_eq_some_iff.mp hslot).1
    -- A slot that is taken is not free, so it is freed once.
    have hfresh : id.slot.toNat ∉ a.free := by
      intro hmem
      obtain ⟨g, hg⟩ := h.vacant _ hmem
      rw [hslot] at hg
      simp at hg
    rw [without_of_get?_eq_some hi]
    refine ⟨by rw [List.length_set]; exact h.fits, ?_, List.nodup_cons.mpr ⟨hfresh, h.nodup⟩⟩
    intro k hk
    by_cases hkid : id.slot.toNat = k
    · exact ⟨id.generation + 1, by rw [← hkid, List.getElem?_set_self hlt]⟩
    · rcases List.mem_cons.mp hk with rfl | hk
      · exact absurd rfl hkid
      · obtain ⟨g, hg⟩ := h.vacant k hk
        exact ⟨g, by rw [List.getElem?_set_ne hkid, hg]⟩

/-- A present instance is no root after its removal, an absent one was none before. -/
theorem roots_without (hroots : ∀ r ∈ a.roots, ∃ j, a.get? r = some j) :
    (a.without id).roots = a.roots.filter (· ≠ id) := by
  cases h : a.get? id with
  | none =>
    have habsent : id ∉ a.roots := by
      intro hroot
      obtain ⟨j, hj⟩ := hroots id hroot
      rw [h] at hj
      cases hj
    rw [without_of_get?_eq_none h, InstanceId.filter_ne_of_not_mem habsent]
  | some i => rw [without_of_get?_eq_some h]

/-- **Removal of several instances.** -/
theorem get?_removeAll (ids : List InstanceId) (y : InstanceId) :
    (a.removeAll ids).get? y = if y ∈ ids then none else a.get? y := by
  induction ids generalizing a with
  | nil => simp [removeAll]
  | cons id ids ih =>
    rw [removeAll_cons, ih, get?_without]
    by_cases hy : y ∈ ids
    · simp [hy]
    · by_cases hid : y = id <;> simp [hy, hid]

theorem removeAll_modify (ids : List InstanceId) (x : InstanceId) (f : Instance β → Instance β) :
    (a.modify x f).removeAll ids = (a.removeAll ids).modify x f := by
  induction ids generalizing a with
  | nil => rfl
  | cons id ids ih => rw [removeAll_cons, removeAll_cons, without_modify, ih]

/-- **What was done to instances that are removed** does not matter. -/
theorem removeAll_modifyAll {ids xs : List InstanceId} (h : ∀ x ∈ xs, x ∈ ids)
    (f : Instance β → Instance β) : (a.modifyAll xs f).removeAll ids = a.removeAll ids := by
  induction xs generalizing a with
  | nil => rfl
  | cons x xs ih =>
    have hgone : (a.removeAll ids).get? x = none := by
      rw [get?_removeAll, if_pos (h x List.mem_cons_self)]
    rw [modifyAll_cons, ih fun y hy => h y (List.mem_cons_of_mem _ hy), removeAll_modify,
      modify_of_get?_eq_none hgone]

theorem lastOrder_removeAll (ids : List InstanceId) :
    (a.removeAll ids).lastOrder = a.lastOrder := by
  induction ids generalizing a with
  | nil => rfl
  | cons id ids ih => rw [removeAll_cons, ih, lastOrder_without]

theorem Stored.removeAll (h : a.Stored) (ids : List InstanceId) : (a.removeAll ids).Stored := by
  induction ids generalizing a with
  | nil => exact h
  | cons id ids ih => exact ih h.without

theorem roots_removeAll (ids : List InstanceId)
    (hroots : ∀ r ∈ a.roots, ∃ j, a.get? r = some j) :
    (a.removeAll ids).roots = a.roots.filter (· ∉ ids) := by
  induction ids generalizing a with
  | nil =>
    symm
    exact List.filter_eq_self.mpr fun r _ => by simp
  | cons id ids ih =>
    rw [removeAll_cons, ih, roots_without hroots, List.filter_filter]
    · congr 1
      funext r
      simp [Bool.and_comm]
    · intro r hr
      rw [roots_without hroots, List.mem_filter] at hr
      rw [get?_without, if_neg (by simpa using hr.2)]
      exact hroots r hr.1

end Arena

end ProductModel
