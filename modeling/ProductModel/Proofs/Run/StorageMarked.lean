import ProductModel.Proofs.Run.Outcomes
import ProductModel.Proofs.Run.Permissive

/-!
# Marks of storage in a model that changes

A sweep marks handles as storable or not.  While it is under way, bodies may remove the instances of
the subtree and create others, be it under a handle that was free.  So what becomes of a mark is
said of instances: those that are told apart by their numbers in the order of creation, of which
none is given out twice.

`Model.MarkedBy` says what the marks of all instances are after some handles were marked: an
instance of before has the mark that its handle was given, or the one that it had; a new one is not
storable unless its handle was marked.  Bodies that run no sweep mark nothing, whatever else they do
(`Language.considerate_sweepless`).
-/

namespace ProductModel

open ProductModel.Action

variable {β σ α : Type} {m m' m'' : Model β} {w w' : World β σ} {id x y : InstanceId}
  {i j : Instance β}

/-! ## Marks -/

/-- **The marks that handles were given**, last of all; `none` where there was none. -/
abbrev Marks := InstanceId → Option Bool

namespace Marks

/-- No handle was marked. -/
def none : Marks := fun _ => Option.none

/-- One handle was marked. -/
def single (x : InstanceId) (storable : Bool) : Marks :=
  fun y => if y = x then some storable else Option.none

/-- Handles were marked, and later on others, or the same again. -/
def andThen (f g : Marks) : Marks := fun y => (g y).or (f y)

theorem getD_andThen (f g : Marks) (y : InstanceId) (storable : Bool) :
    (f.andThen g y).getD storable = (g y).getD ((f y).getD storable) := by
  unfold andThen
  cases g y <;> rfl

theorem andThen_eq_none_iff {f g : Marks} : f.andThen g y = Option.none ↔
    g y = Option.none ∧ f y = Option.none := Option.or_eq_none_iff

end Marks

/-- **What the marks of instances are after handles were marked.** -/
structure Model.MarkedBy (marks : Marks) (m m' : Model β) : Prop where
  stored : m'.arena.Stored
  lastOrder : m.arena.lastOrder ≤ m'.arena.lastOrder
  /-- an instance was there before, under the same handle, or is new -/
  origin : ∀ {y j}, m'.arena.get? y = some j →
    (∃ i, m.arena.get? y = some i ∧ i.order = j.order ∧
      j.storable = (marks y).getD i.storable) ∨
    (m.arena.lastOrder < j.order ∧ (marks y = none → j.storable = false))

namespace Model.MarkedBy

variable {f g : Marks}

/-- Instances keep their numbers, and have the marks of their handles. -/
theorem of_same (hstored : m'.arena.Stored) (hlast : m'.arena.lastOrder = m.arena.lastOrder)
    (hsame : ∀ {y j}, m'.arena.get? y = some j → ∃ i, m.arena.get? y = some i ∧
      i.order = j.order ∧ j.storable = (f y).getD i.storable) : m.MarkedBy f m' :=
  ⟨hstored, Nat.le_of_eq hlast.symm, fun hj => .inl (hsame hj)⟩

theorem refl (h : m.arena.Stored) : m.MarkedBy .none m :=
  .of_same h rfl fun {_ j} hj => ⟨j, hj, rfl, rfl⟩

/-- **Marks are given one after the other.** -/
theorem trans (h : m.MarkedBy f m') (h' : m'.MarkedBy g m'') : m.MarkedBy (f.andThen g) m'' := by
  refine ⟨h'.stored, Nat.le_trans h.lastOrder h'.lastOrder, fun {y k} hk => ?_⟩
  rcases h'.origin hk with ⟨j, hj, horder, hmark⟩ | ⟨hnew, hmark⟩
  · rw [← horder]
    rcases h.origin hj with ⟨i, hi, horder', hmark'⟩ | ⟨hnew, hmark'⟩
    · refine .inl ⟨i, hi, horder', ?_⟩
      rw [Marks.getD_andThen, ← hmark', hmark]
    · refine .inr ⟨hnew, fun hnone => ?_⟩
      rw [Marks.andThen_eq_none_iff] at hnone
      rw [hmark, hnone.1, Option.getD_none]
      exact hmark' hnone.2
  · exact .inr ⟨Nat.lt_of_le_of_lt h.lastOrder hnew,
      fun hnone => hmark (Marks.andThen_eq_none_iff.mp hnone).1⟩

/-- Whatever is done to one instance, its number stays what it was. -/
theorem modify (h : m.arena.Stored) {change : Instance β → Instance β}
    (horder : ∀ i, (change i).order = i.order)
    (hmark : ∀ i, (change i).storable = (f id).getD i.storable)
    (helse : ∀ y, y ≠ id → f y = none) : m.MarkedBy f (m.modify id change) := by
  refine .of_same (h.modify _) (Arena.lastOrder_modify _) fun {y j} hj => ?_
  change (m.arena.modify id change).get? y = some j at hj
  rw [Arena.get?_modify] at hj
  split at hj
  · rename_i hy
    obtain ⟨i, hi, rfl⟩ := Option.map_eq_some_iff.mp hj
    exact ⟨i, hy ▸ hi, (horder i).symm, hy ▸ hmark i⟩
  · rename_i hy
    exact ⟨j, hj, rfl, by rw [helse y hy, Option.getD_none]⟩

/-- **A handle is marked.** -/
theorem mark (h : m.arena.Stored) (x : InstanceId) (storable : Bool) :
    m.MarkedBy (.single x storable) (m.modify x fun i => { i with storable }) :=
  .modify h (fun _ => rfl) (fun _ => by rw [Marks.single, if_pos rfl, Option.getD_some])
    fun _ hy => if_neg hy

/-- A subtree is removed. -/
theorem removeSubtree (h : m.arena.Stored) (id : InstanceId) (father : Option InstanceId) :
    m.MarkedBy .none (m.removeSubtree id father).2 := by
  have harena := m.arena_removeSubtree id father
  refine .of_same (harena ▸ h.prune id father) (harena ▸ Arena.lastOrder_prune id father)
    fun {y j} hj => ?_
  rw [harena, Arena.get?_prune] at hj
  split at hj
  · cases hj
  · split at hj
    · obtain ⟨i, hi, rfl⟩ := Option.map_eq_some_iff.mp hj
      exact ⟨i, hi, rfl, rfl⟩
    · exact ⟨j, hj, rfl, rfl⟩

end Model.MarkedBy

/-! ## Nothing is marked -/

/-- **No handle was marked** from one model to another. -/
def Model.Unmarked (m m' : Model β) : Prop := m.arena.Stored → m.MarkedBy .none m'

theorem Model.unmarked_of_same (hstored : m.arena.Stored → m'.arena.Stored)
    (hlast : m'.arena.lastOrder = m.arena.lastOrder) (hsame : ∀ y,
      (m'.arena.get? y).map (fun i => (i.order, i.storable)) =
        (m.arena.get? y).map fun i => (i.order, i.storable)) : m.Unmarked m' := by
  refine fun h => .of_same (hstored h) hlast fun {y j} hj => ?_
  obtain ⟨i, hi, hpart⟩ := Arena.exists_get?_of_map_eq (hsame y).symm hj
  exact ⟨i, hi, congrArg Prod.fst hpart, (congrArg Prod.snd hpart).symm⟩

theorem Model.undisturbed_unmarked : Undisturbed (Unmarked (β := β)) where
  refl _ h := .refl h
  trans h h' hm := (h hm).trans (h' (h hm).stored)
  remembering _ _ h := unmarked_of_same h.stored h.lastOrder fun y =>
    h.map_eq (fun i => (i.order, i.storable)) (fun _ => rfl) y
  changing _ _ h := .of_same h rfl fun {_ j} hj => ⟨j, hj, rfl, rfl⟩

/-- A number that was given out for nothing marks nothing. -/
theorem World.unmarked_counting (w : World β σ) : w.model.Unmarked w.counting.model := by
  refine fun h => ⟨h.nextOrder, Nat.le_succ _, fun {y j} hj => .inl ⟨j, ?_, rfl, rfl⟩⟩
  rwa [counting, Arena.get?_nextOrder] at hj

/-- **A new instance is not marked.** -/
theorem Model.unmarked_insert {b : Arena β} (h : m.arena.Stored)
    (hins : m.arena.nextOrder.2.insert i = .ok (id, b)) (horder : i.order = m.arena.lastOrder + 1)
    (hmark : i.storable = false) (father : Option InstanceId) :
    m.MarkedBy .none { m with arena := b.adopt father id } := by
  have hnext := h.nextOrder
  have hlast : (b.adopt father id).lastOrder = m.arena.lastOrder + 1 := by
    rw [Arena.lastOrder_adopt, Arena.lastOrder_of_insert hnext hins]
    rfl
  -- Adoption changes no more than the children of the father.
  have hback : ∀ {y j}, (b.adopt father id).get? y = some j →
      ∃ k, b.get? y = some k ∧ k.order = j.order ∧ j.storable = k.storable := by
    intro y j hj
    rw [Arena.get?_adopt] at hj
    split at hj
    · obtain ⟨k, hk, rfl⟩ := Option.map_eq_some_iff.mp hj
      exact ⟨k, hk, rfl, rfl⟩
    · exact ⟨j, hj, rfl, rfl⟩
  refine ⟨(hnext.insert hins).adopt father id, by rw [hlast]; exact Nat.le_succ _,
    fun {y j} hj => ?_⟩
  obtain ⟨k, hk, hkorder, hkmark⟩ := hback hj
  rw [Arena.get?_insert hnext hins, Arena.get?_nextOrder] at hk
  split at hk
  · cases hk
    refine .inr ⟨?_, fun _ => hkmark.trans hmark⟩
    rw [← hkorder, horder]
    exact Nat.lt_succ_self _
  · exact .inl ⟨k, hk, hkorder, hkmark⟩

/-- Instances may come and go without being marked. -/
theorem Model.permissive_unmarked :
    Permissive (OfModels Unmarked : World β σ → World β σ → Prop) where
  toNeutral := undisturbed_unmarked.tolerant.toNeutral
  placing := undisturbed_unmarked.tolerant.place (fun w => w.unmarked_counting)
    (fun hins hstored => unmarked_insert hstored hins rfl rfl _)
    fun _ _ _ _ h => .modify h (fun _ => rfl) (fun _ => rfl) fun _ _ => rfl
  dropping _ id father h := .removeSubtree h id father
  touching horder hmark _ _ _ h := .modify h horder hmark fun _ _ => rfl
  products _ _ h := .of_same h rfl fun {_ j} hj => ⟨j, hj, rfl, rfl⟩

/-! ## Bodies that run no sweep -/

/-- **Operations other than sweeps.** -/
def Op.isNoSweep : Op β → Bool
  | .sweep _ _ => false
  | _ => true

/-- **The language whose bodies run no sweep.**  They may do anything else. -/
def Language.sweepless (L : Language β σ) (refusal : ModelError) : Language β σ :=
  L.guarded (fun _ op => op.isNoSweep) refusal

/-- **All operations but sweeps mark nothing**, if the bodies do not that they run. -/
theorem Engine.Considerate.unmarked_step {e : Engine β σ}
    (h : e.Considerate (OfModels Model.Unmarked)) {op : Op β} (hop : op.isNoSweep = true) :
    Respects (OfModels Model.Unmarked) (e.step op) := by
  have hR := Model.undisturbed_unmarked.tolerant (β := β) (σ := σ)
  have htypes : ∀ (w : World β σ) types,
      OfModels Model.Unmarked w { w with model := { w.model with types } } :=
    fun _ _ h => .of_same h rfl fun {_ j} hj => ⟨j, hj, rfl, rfl⟩
  cases op with
  | register d => exact hR.changeTypes htypes (·.register d)
  | redefine typeName d => exact hR.changeTypes htypes (·.redefine typeName d)
  | _ =>
    first
    | exact h.step_of_isOrdinary_of_heedless Model.permissive_unmarked hR rfl
    | exact absurd hop Bool.false_ne_true

variable {refusal : ModelError}

/-- **What bodies can perform that run no sweep** marks nothing, however deep bodies are nested. -/
theorem unmarked_perform (L : Language β σ) (allowance : Nat) {op : Op β}
    (hop : op.isNoSweep = true) :
    Respects (OfModels Model.Unmarked) (perform (L.sweepless refusal) allowance op) := by
  induction allowance generalizing op with
  | zero => exact ⟨fun _ => always_exhausted⟩
  | succ allowance ih =>
    exact (Language.considerate_guarded Model.undisturbed_unmarked.tolerant
      fun op hop => (ih hop).always _).unmarked_step hop

/-- **All bodies of such a language mark nothing.** -/
theorem Language.considerate_sweepless (L : Language β σ) (allowance : Nat) :
    ((L.sweepless refusal).engine allowance).Considerate (OfModels Model.Unmarked) :=
  Language.considerate_guarded Model.undisturbed_unmarked.tolerant
    fun _ hop => (unmarked_perform L allowance hop).always _

end ProductModel
