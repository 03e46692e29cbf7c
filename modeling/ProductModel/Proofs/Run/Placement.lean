import ProductModel.Engine.Placement
import ProductModel.Proofs.Run.Calls

/-!
# Movements, sweeps and plain changes follow the rules

These operations change instances in parts that neither the tree nor the names nor a rule chain
depends on, and run rule chains in between.
-/

namespace ProductModel

open ProductModel.Action

variable {β τ : Type} {seen : τ → Watch β}

/-- Setting an attribute concerns the fields and the further attributes alone. -/
theorem follows_setAttr (id : InstanceId) (name : Symbol) (v : Value) :
    Follows seen (setAttr id name v : Action β τ Unit) := by
  refine .amend ?_ ?_ ?_ <;>
    (intro i; unfold Instance.setAttribute; split <;> rfl)

theorem follows_attachGeometry (id : InstanceId) (geometry : Geometry β) :
    Follows seen (attachGeometry id geometry : Action β τ Unit) :=
  .amend (fun _ => rfl) (fun _ => rfl) fun _ => rfl

/-- Product data are registered for instances that are there. -/
theorem follows_setProductData (id : InstanceId) (data : ProductData β) :
    Follows seen (setProductData id data : Action β τ Unit) := by
  constructor
  intro pending w hw
  unfold setProductData
  refine .find_bind hw fun i hi => ?_
  refine .retouch hw (.of_arena rfl ?_) (.refl _) True.intro
  intro y hy
  rcases (Association.mem_keys_insert _ data).mp hy with rfl | hy
  · exact Or.inr ⟨i, hi⟩
  · exact Or.inl hy

theorem follows_setProgram (id program : InstanceId) :
    Follows seen (setProgram id program : Action β τ Unit) := by
  unfold setProgram
  exact (Follows.find program).bind fun _ => .amend (fun _ => rfl) (fun _ => rfl) fun _ => rfl

theorem follows_setPosition (id : InstanceId) (position : Vec3) :
    Follows seen (setPosition id position : Action β τ Unit) :=
  .amend (fun _ => rfl) (fun _ => rfl) fun _ => rfl

theorem follows_setStorable (id : InstanceId) (storable : Bool) :
    Follows seen (update id fun i => { i with storable } : Action β τ Unit) :=
  .amend (fun _ => rfl) (fun _ => rfl) fun _ => rfl

theorem follows_markStorable (storable : Bool) (ids : List InstanceId) :
    Follows seen (Engine.markStorable storable ids : Action β τ Unit) := by
  induction ids with
  | nil => exact .pure _
  | cons id ids ih =>
    unfold Engine.markStorable
    exact (follows_setStorable id storable).bind fun _ => ih

namespace Engine.Lawful

variable {e : Engine β τ} (h : e.Lawful seen)
include h

/-! ## Movements -/

/-- Attached geometry is told about a movement and sees nothing else. -/
theorem notifyGeometry (id : InstanceId) : Follows seen (e.notifyGeometry id) := by
  unfold Engine.notifyGeometry
  refine (Follows.find id).bind fun i => ?_
  split
  · exact .pure _
  · constructor
    intro pending w hw
    exact (always_modify _).mpr ⟨.of_same hw rfl (h.transformed _ _ _ _), True.intro⟩

theorem move (id : InstanceId) (reason : Symbol) (arg : Value)
    {change : Instance β → Instance β} (hstanding : ∀ i, (change i).standing = i.standing)
    (hmemo : ∀ i, (change i).memo = i.memo) (hactivity : ∀ i, (change i).activity = i.activity) :
    Follows seen (e.move id reason arg change) := by
  unfold Engine.move
  refine (h.callRules _ _ _ _).bind fun outcome => ?_
  split
  · exact .pure _
  · refine (Follows.amend hstanding hmemo hactivity).bind fun _ => ?_
    exact (h.notifyGeometry id).bind fun _ => h.callRules _ _ _ _

theorem translate (id : InstanceId) (delta : Vec3) : Follows seen (e.translate id delta) :=
  h.move _ _ _ (fun _ => rfl) (fun _ => rfl) fun _ => rfl

theorem rotate (id : InstanceId) (axis : Axis) (angle : Float) :
    Follows seen (e.rotate id axis angle) :=
  h.move _ _ _ (fun _ => rfl) (fun _ => rfl) fun _ => rfl

theorem pick (id : InstanceId) : Follows seen (e.pick id) := by
  unfold Engine.pick
  refine (Follows.find id).bind fun _ => Follows.model.bind fun m => ?_
  refine (Follows.find _).bind fun i => ?_
  split
  · exact .pure _
  · refine (h.callRules _ _ _ _).bind fun outcome => ?_
    split <;> exact .pure _

/-! ## Sweeps -/

theorem enterStorable (reason : Symbol) (done : List InstanceId) (executed : Nat)
    (ids : List InstanceId) : Follows seen (e.enterStorable reason done executed ids) := by
  induction ids generalizing done executed with
  | nil => exact .pure _
  | cons id ids ih =>
    unfold Engine.enterStorable
    refine (h.callRules _ _ _ _).bind fun outcome => ?_
    split
    · exact (follows_setStorable id true).bind fun _ => ih _ _
    · exact (follows_markStorable _ _).bind fun _ => .pure _

theorem leaveStorable (reason : Symbol) (executed : Nat) (rejection : Option Rejection)
    (ids : List InstanceId) : Follows seen (e.leaveStorable reason executed rejection ids) := by
  induction ids generalizing executed rejection with
  | nil => cases rejection <;> exact .pure _
  | cons id ids ih =>
    rw [Engine.leaveStorable]
    refine (h.callRules _ _ _ _).bind fun outcome => ?_
    split <;> exact (follows_setStorable id false).bind fun _ => ih _ _

theorem sweep (kind : Sweep) (root : InstanceId) : Follows seen (e.sweep kind root) := by
  unfold Engine.sweep
  refine (Follows.find root).bind fun _ => Follows.model.bind fun m => ?_
  split
  · exact h.enterStorable _ _ _ _
  · exact h.leaveStorable _ _ _ _

end Engine.Lawful

end ProductModel
