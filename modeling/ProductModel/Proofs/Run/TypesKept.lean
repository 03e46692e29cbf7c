import ProductModel.Proofs.Registry.Namesakes
import ProductModel.Proofs.Run.Permissive

/-!
# Bodies change types by registrations and redefinitions alone

Bodies may register types and redefine them while they run, be it that of an instance whose rules
are just at work.  Nothing else that they can do changes the registry.  So whatever relation holds
along every registration and redefinition (`Registry.Along`) holds between the registries at the
beginning and at the end of everything that bodies do, however deep they are nested
(`Language.respects_along`).

One such relation is that types are never taken away and keep their names (`Registry.NamesLast`).
-/

namespace ProductModel

open ProductModel.Action

variable {β σ α γ : Type} {T : Registry β → Registry β → Prop} {w w' : World β σ}
  {id : InstanceId}

/-! ## Relations along changes of types -/

/-- **A relation that holds along every registration and redefinition.** -/
structure Registry.Along (T : Registry β → Registry β → Prop) : Prop where
  refl : ∀ r, T r r
  trans : ∀ {r r' r''}, T r r' → T r' r'' → T r r''
  register : ∀ {r r' d id}, r.register d = .ok (id, r') → T r r'
  redefine : ∀ {r r' typeName d id}, r.redefine typeName d = .ok (id, r') → T r r'

/-- The relation between the registries of two models. -/
def OfTypes (T : Registry β → Registry β → Prop) (m m' : Model β) : Prop := T m.types m'.types

section Types

variable (hT : Registry.Along T)
include hT

/-- Such a relation sees nothing of instances. -/
theorem Registry.Along.coarse : Coarse (OfTypes T) where
  refl m := hT.refl m.types
  trans h h' := hT.trans h h'
  remembering m _ _ := hT.refl m.types
  changing m _ := hT.refl m.types
  amending m _ _ _ := hT.refl m.types
  products m _ := hT.refl m.types

namespace Registry.Along

theorem tolerant : Tolerant (OfModels (OfTypes T) : World β σ → World β σ → Prop) :=
  hT.coarse.tolerant

theorem aloof : Aloof (OfModels (OfTypes T) : World β σ → World β σ → Prop) where
  same {w w'} htypes _ _ := by
    show T w.model.types w'.model.types
    rw [htypes]
    exact hT.refl w.model.types
  trans h h' := hT.trans h h'

theorem changeTypes {change : Registry β → Except TypeError (TypeId × Registry β)}
    (hchange : ∀ {r id r'}, change r = .ok (id, r') → T r r') :
    Respects (OfModels (OfTypes T)) (Engine.changeTypes change : Action β σ _) := by
  constructor
  intro w
  unfold Engine.changeTypes
  rw [always_bind, always_model]
  dsimp only
  rw [always_bind, always_ofExcept]
  refine ⟨fun changed hok => ?_, fun _ _ => hT.refl w.model.types⟩
  rw [always_bind, always_modifyModel, always_pure]
  cases hr : change w.model.types with
  | error err =>
    rw [hr] at hok
    cases hok
  | ok r =>
    rw [hr] at hok
    cases hok
    exact hchange hr

end Registry.Along

/-! ## Operations -/

/-- **Every operation changes types by registrations and redefinitions alone**, if the bodies do
that it runs. -/
theorem Engine.Considerate.types_step {e : Engine β σ} (h : e.Considerate (OfModels (OfTypes T)))
    (op : Op β) : Respects (OfModels (OfTypes T)) (e.step op) := by
  have hA := hT.aloof (σ := σ)
  cases op with
  | register d => exact hT.changeTypes hT.register
  | redefine typeName d => exact hT.changeTypes hT.redefine
  | sweep kind root =>
    exact h.sweep hA.neutral (fun _ => hA.allows _) (fun _ => hA.allows _) (fun _ _ => hA.allows _)
      kind root
  | _ => exact h.step_of_isOrdinary_of_heedless hA.permissive hT.tolerant.toHeedless rfl

/-! ## However deep -/

/-- **Bodies change types by registrations and redefinitions alone**, however deep they are
nested. -/
theorem Registry.Along.perform (L : Language β σ) (allowance : Nat) (op : Op β) :
    Respects (OfModels (OfTypes T)) (perform L allowance op) := by
  induction allowance generalizing op with
  | zero => exact ⟨fun _ => always_exhausted⟩
  | succ allowance ih => exact (Language.considerate_engine hT.tolerant ih).types_step hT op

theorem Language.respects_along (L : Language β σ) (allowance : Nat) :
    (L.engine allowance).Considerate (OfModels (OfTypes T)) :=
  Language.considerate_engine hT.tolerant (hT.perform L allowance)

end Types

/-! ## Names last -/

namespace Registry

variable {r r' : Registry β}

/-- **Types are never taken away, and keep their names.** -/
structure NamesLast (r r' : Registry β) : Prop where
  size : r.size ≤ r'.size
  name : ∀ {t : TypeId}, t.index < r.size → r'.name t = r.name t

theorem NamesLast.redefine {typeName : String} {d : TypeDef β} {x : TypeId}
    (h : r.redefine typeName d = .ok (x, r')) : r.NamesLast r' := by
  obtain ⟨supertype, operators, -, hname, -, -, -, rfl⟩ := redefine_cases h
  refine ⟨Nat.le_of_eq (size_replace d supertype operators).symm, fun {t} ht => ?_⟩
  by_cases hx : x.index < r.size
  · exact name_replace supertype operators hx hname t
  · -- Nothing is on record under the handle, so nothing is replaced.
    have hne : t ≠ x := fun heq => hx (heq ▸ ht)
    unfold Registry.name definition?
    rw [record?_replace, if_neg hne]

/-- **Names last** along every registration and redefinition. -/
theorem along_namesLast : Along (NamesLast (β := β)) where
  refl _ := ⟨Nat.le_refl _, fun _ => rfl⟩
  trans h h' := ⟨Nat.le_trans h.size h'.size, fun ht =>
    (h'.name (Nat.lt_of_lt_of_le ht h.size)).trans (h.name ht)⟩
  register h := by
    obtain ⟨supertype, operators, -, -, -, -, rfl⟩ := register_cases h
    refine ⟨?_, fun ht => name_append_of_lt _ ht⟩
    rw [size_append]
    exact Nat.le_succ _
  redefine := NamesLast.redefine

end Registry

end ProductModel
