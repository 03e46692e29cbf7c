import ProductModel.Proofs.Arena.AbsoluteName

/-!
# The number of instances

An arena counts its instances as they come and go, and does not look at its slots to tell how many
there are.  `Arena.Counted` says that the number is right.  One lemma for each change of an arena
says that it stays so: an insertion adds a handle to the list of those that are present, a removal
takes one from it, and no other change makes an instance come or go.
-/

namespace ProductModel

variable {β : Type} {id : InstanceId} {i : Instance β}

/-- **The number of instances is right**: there is a list of all handles that are present, each of
them once, with as many entries. -/
structure Arena.Counted (a : Arena β) : Prop where
  stored : a.Stored
  counted : ∃ ids : List InstanceId, ids.Nodup ∧ (∀ x, x ∈ ids ↔ a.contains x = true) ∧
    ids.length = a.size

namespace Arena

variable {a b : Arena β}

theorem counted_empty : (empty : Arena β).Counted :=
  ⟨stored_empty, [], List.nodup_nil, fun x => by simp [contains], rfl⟩

namespace Counted

/-- It does not matter what the instances are. -/
theorem of_same (h : a.Counted) (hstored : b.Stored)
    (hthere : ∀ x, b.contains x = a.contains x) (hsize : b.size = a.size) : b.Counted := by
  obtain ⟨ids, hnodup, hmem, hlength⟩ := h.counted
  exact ⟨hstored, ids, hnodup, fun x => by rw [hmem, hthere], by rw [hlength, hsize]⟩

theorem remembered (h : a.Counted) (honly : a.Remembered b) : b.Counted := by
  refine h.of_same (honly.stored h.stored) (fun x => ?_) honly.size
  have hsame := congrArg Option.isSome (honly.same x)
  rwa [Option.isSome_map, Option.isSome_map] at hsame

theorem modify (h : a.Counted) (id : InstanceId) (f : Instance β → Instance β) :
    (a.modify id f).Counted := by
  refine h.of_same (h.stored.modify f) (fun x => ?_) (size_modify f)
  rw [contains, contains, get?_modify]
  split
  · rename_i hx
    rw [Option.isSome_map, hx]
  · rfl

theorem nextOrder (h : a.Counted) : a.nextOrder.2.Counted :=
  h.of_same h.stored.nextOrder (fun x => congrArg Option.isSome (get?_nextOrder x)) rfl

/-- **A new instance counts.** -/
theorem insert (h : a.Counted) (hins : a.insert i = .ok (id, b)) : b.Counted := by
  obtain ⟨ids, hnodup, hmem, hlength⟩ := h.counted
  have hfresh : id ∉ ids := by
    rw [hmem, contains, get?_eq_none_of_insert h.stored hins]
    exact Bool.false_ne_true
  have hsize : b.size = a.size + 1 := by
    rcases insert_cases h.stored hins with ⟨_, _, _, -, -, -, -, rfl⟩ | ⟨-, -, -, rfl⟩ <;> rfl
  refine ⟨h.stored.insert hins, id :: ids, List.nodup_cons.mpr ⟨hfresh, hnodup⟩, fun x => ?_, ?_⟩
  · rw [List.mem_cons, hmem, contains, contains, get?_insert h.stored hins]
    by_cases hx : x = id
    · simp [hx]
    · simp [hx]
  · rw [List.length_cons, hlength, hsize]

theorem adopt (h : a.Counted) (father : Option InstanceId) (id : InstanceId) :
    (a.adopt father id).Counted := by
  cases father with
  | none => exact h.of_same h.stored.addRoot (fun x => congrArg Option.isSome (get?_addRoot x)) rfl
  | some f => exact h.modify f _

/-- **What is removed no longer counts.** -/
theorem without (h : a.Counted) (id : InstanceId) : (a.without id).Counted := by
  cases hi : a.get? id with
  | none =>
    rw [without_of_get?_eq_none hi]
    exact h
  | some i =>
    obtain ⟨ids, hnodup, hmem, hlength⟩ := h.counted
    have hlisted : id ∈ ids := by
      rw [hmem, contains, hi]
      rfl
    have hsize : (a.without id).size = a.size - 1 := by
      rw [without_of_get?_eq_some hi]
      rfl
    refine ⟨h.stored.without, ids.erase id, hnodup.erase id, fun x => ?_, ?_⟩
    · rw [hnodup.mem_erase_iff, hmem, contains, contains, get?_without]
      by_cases hx : x = id
      · simp [hx]
      · simp [hx]
    · rw [List.length_erase_of_mem hlisted, hlength, hsize]

theorem removeAll (h : a.Counted) (ids : List InstanceId) : (a.removeAll ids).Counted := by
  induction ids generalizing a with
  | nil => exact h
  | cons id ids ih => exact ih (h.without id)

theorem prune (h : a.Counted) (id : InstanceId) (father : Option InstanceId) :
    (a.prune id father).Counted := by
  cases father with
  | none => exact h.removeAll _
  | some f => exact (h.removeAll _).modify f _

/-- The list of the handles at which instances are. -/
theorem exists_handles (h : a.Counted) : ∃ ids : List InstanceId, ids.Nodup ∧
    (∀ x, x ∈ ids ↔ ∃ i, a.get? x = some i) ∧ a.size = ids.length := by
  obtain ⟨ids, hnodup, hmem, hlength⟩ := h.counted
  exact ⟨ids, hnodup, fun x => (hmem x).trans Option.isSome_iff_exists, hlength.symm⟩

end Counted

end Arena

end ProductModel
