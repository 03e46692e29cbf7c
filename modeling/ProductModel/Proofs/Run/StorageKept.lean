import ProductModel.Proofs.Run.Considerate

/-!
# Bodies that leave storage alone

An instance is storable while a sweep has marked it so.  `Model.storage` says which instances there
are and which of them are storable.  Only a creation, a removal or a sweep changes that, and a body
that performs none of these leaves it as it is, whatever else it does, be it by further bodies that
run for it (`Language.considerate_storageKeeping`).
-/

namespace ProductModel

open ProductModel.Action

variable {β σ α : Type} {m m' : Model β} {w w' : World β σ} {id x : InstanceId} {i : Instance β}

/-! ## Storage -/

/-- **Which instances there are, and which of them are storable.** -/
def Model.storage (m : Model β) (y : InstanceId) : Option Bool :=
  (m.arena.get? y).map (·.storable)

/-- **An instance is there and storable.** -/
def Model.Storable (m : Model β) (y : InstanceId) : Prop := m.storage y = some true

theorem Model.storage_eq (hi : m.arena.get? x = some i) : m.storage x = some i.storable := by
  rw [storage, hi]
  rfl

theorem Model.exists_of_storage (h : (m.storage x).isSome) : ∃ i, m.arena.get? x = some i := by
  rw [storage, Option.isSome_map] at h
  exact Option.isSome_iff_exists.mp h

/-- **The models have the same instances, and the same of them are storable.** -/
def Model.SameStorage (m m' : Model β) : Prop := m'.storage = m.storage

theorem Model.undisturbed_sameStorage : Undisturbed (SameStorage (β := β)) where
  refl _ := rfl
  trans h h' := Eq.trans h' h
  remembering _ _ h := funext fun y => h.map_eq (·.storable) (fun _ => rfl) y
  changing _ _ := rfl

/-- A change that leaves the mark of an instance alone. -/
theorem Model.sameStorage_modify {f : Instance β → Instance β}
    (hf : ∀ i, (f i).storable = i.storable) : m.SameStorage (m.modify id f) :=
  funext fun y => Arena.map_get?_modify _ (fun i _ => hf i) y

theorem Model.coarse_sameStorage : Coarse (SameStorage (β := β)) where
  toUndisturbed := undisturbed_sameStorage
  amending _ _ _ hf := sameStorage_modify fun i =>
    Instance.eq_of_lasting (hf i) (·.storable) fun _ => rfl
  products _ _ := rfl

theorem allows_sameStorage {f : Instance β → Instance β} (hf : ∀ i, (f i).storable = i.storable) :
    Allows (OfModels Model.SameStorage : World β σ → World β σ → Prop) id f :=
  fun _ _ _ => Model.sameStorage_modify hf

/-! ## Operations that leave storage alone -/

/-- **Operations that neither create nor remove an instance, nor run a sweep.** -/
def Op.leavesStorage : Op β → Bool
  | .instantiate _ _ _ _ | .addElement _ _ _ | .remove _ | .sweep _ _ => false
  | _ => true

/-- **The language whose bodies leave storage alone**: none of them creates or removes an instance,
or runs a sweep. -/
def Language.storageKeeping (L : Language β σ) (refusal : ModelError) : Language β σ :=
  L.guarded (fun _ op => op.leavesStorage) refusal

/-- **All other operations leave storage alone**, if the bodies do that they run. -/
theorem Engine.Considerate.sameStorage_step {e : Engine β σ}
    (h : e.Considerate (OfModels Model.SameStorage)) {op : Op β} (hop : op.leavesStorage = true) :
    Respects (OfModels Model.SameStorage) (e.step op) := by
  have hM := Model.coarse_sameStorage (β := β)
  have hR := hM.tolerant (σ := σ)
  cases op with
  | register d => exact hR.changeTypes (fun _ _ => rfl) (·.register d)
  | redefine typeName d => exact hR.changeTypes (fun _ _ => rfl) (·.redefine typeName d)
  | rename x name => exact hR.rename (allows_sameStorage fun _ => rfl)
  | beElement x => exact hR.beElement (allows_sameStorage fun _ => rfl)
  | unBeElement x => exact hR.unBeElement (allows_sameStorage fun _ => rfl)
  | _ => first | exact h.step_of_isPlain hM rfl | cases hop

/-! ## However deep -/

variable {refusal : ModelError}

/-- **What bodies that leave storage alone can perform** leaves it alone, however deep bodies are
nested. -/
theorem sameStorage_perform (L : Language β σ) (allowance : Nat) {op : Op β}
    (hop : op.leavesStorage = true) :
    Respects (OfModels Model.SameStorage) (perform (L.storageKeeping refusal) allowance op) := by
  induction allowance generalizing op with
  | zero => exact ⟨fun _ => always_exhausted⟩
  | succ allowance ih =>
    exact (Language.considerate_guarded Model.undisturbed_sameStorage.tolerant
      fun op hop => (ih hop).always _).sameStorage_step hop

/-- **All bodies of such a language leave storage alone.** -/
theorem Language.considerate_storageKeeping (L : Language β σ) (allowance : Nat) :
    ((L.storageKeeping refusal).engine allowance).Considerate (OfModels Model.SameStorage) :=
  Language.considerate_guarded Model.undisturbed_sameStorage.tolerant
    fun _ hop => (sameStorage_perform L allowance hop).always _

end ProductModel
