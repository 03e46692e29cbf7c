import Mathlib.Logic.Relation
import ProductModel.Proofs.Arena.AbsoluteName
import ProductModel.Proofs.Arena.Preorder

/-!
# Ways up

Walks along father links are written here as they are thought of, without a bound that may cut them
short:

* `Arena.Climbs` is a walk that goes up from some instances and stops at others, and where it ends;
* `Arena.Framed` is the place of an instance in space, by the place of its father.

Each has one outcome at most, because an instance has one father at most.  It has one at all because
fathers were created before their children (`Forest.wellFounded`).  So the bounded walks of
`ProductModel.Instance.Tree` end where the others do (`Forest.climbs_rootOf`,
`Forest.framed_frameOf`, `Forest.climbs_pickTarget`), as the path does (`Forest.ascent_path`).

In the end the ways up and the subtrees are two views of one thing: `Forest.mem_preorder_iff` reads
subtrees off the ways up, and `Forest.mem_preorder_root_iff` says under which root an instance is.
-/

namespace ProductModel.Arena

variable {β : Type} {a : Arena β} {x y f r r' : InstanceId} {i : Instance β}
  {ids : List InstanceId} {goes : Instance β → Bool}

/-- `f` is the father of `x`. -/
def IsFather (a : Arena β) (f x : InstanceId) : Prop := a.father? x = some f

theorem isFather_iff : a.IsFather f x ↔ ∃ i, a.get? x = some i ∧ i.father = some f := by
  rw [IsFather, father?, Option.bind_eq_some_iff]

/-- **A walk along father links**, from `x` past every instance that it goes on from, and where it
ends.  All that it comes past is there. -/
inductive Climbs (a : Arena β) (goes : Instance β → Bool) : InstanceId → InstanceId → Prop
  | top {x : InstanceId} {i : Instance β} :
      a.get? x = some i → i.father = none → Climbs a goes x x
  | stay {x : InstanceId} {i : Instance β} :
      a.get? x = some i → goes i = false → Climbs a goes x x
  | up {x f y : InstanceId} {i : Instance β} :
      a.get? x = some i → i.father = some f → goes i = true → Climbs a goes f y → Climbs a goes x y

/-- **The place of an instance in space**, seen from its root: its own position and orientation in
the place of its father. -/
inductive Framed (a : Arena β) : InstanceId → Frame → Prop
  | root {x : InstanceId} {i : Instance β} :
      a.get? x = some i → i.father = none → Framed a x (Frame.base.place i.position i.rotation)
  | child {x f : InstanceId} {i : Instance β} {outer : Frame} :
      a.get? x = some i → i.father = some f → Framed a f outer →
      Framed a x (outer.place i.position i.rotation)

namespace Climbs

/-- Where a walk cannot go on, it ends. -/
theorem stops (h : a.Climbs goes x y) (hi : a.get? x = some i)
    (hstop : i.father = none ∨ goes i = false) : y = x := by
  cases h with
  | top => rfl
  | stay => rfl
  | up hi' hf hgoes =>
    rw [hi] at hi'
    cases hi'
    rcases hstop with hnone | hstay
    · rw [hnone] at hf
      cases hf
    · rw [hstay] at hgoes
      cases hgoes

/-- Where a walk can go on, it does. -/
theorem goesOn (h : a.Climbs goes x y) (hi : a.get? x = some i) (hf : i.father = some f)
    (hgoes : goes i = true) : a.Climbs goes f y := by
  cases h with
  | top hi' hnone =>
    rw [hi] at hi'
    cases hi'
    rw [hf] at hnone
    cases hnone
  | stay hi' hstay =>
    rw [hi] at hi'
    cases hi'
    rw [hgoes] at hstay
    cases hstay
  | up hi' hf' _ hup =>
    rw [hi] at hi'
    cases hi'
    rw [hf] at hf'
    cases hf'
    exact hup

/-- **A walk has one end at most.** -/
theorem unique {y' : InstanceId} (h : a.Climbs goes x y) (h' : a.Climbs goes x y') : y = y' := by
  induction h with
  | top hi hf => exact (h'.stops hi (.inl hf)).symm
  | stay hi hstay => exact (h'.stops hi (.inr hstay)).symm
  | up hi hf hgoes _ ih => exact ih (h'.goesOn hi hf hgoes)

end Climbs

namespace Framed

/-- A root has its own place. -/
theorem eq_of_root {frame : Frame} (h : a.Framed x frame) (hi : a.get? x = some i)
    (hf : i.father = none) : frame = Frame.base.place i.position i.rotation := by
  cases h with
  | root hi' _ =>
    rw [hi] at hi'
    cases hi'
    rfl
  | child hi' hf' _ =>
    rw [hi] at hi'
    cases hi'
    rw [hf] at hf'
    cases hf'

/-- A child has a place in that of its father. -/
theorem exists_outer {frame : Frame} (h : a.Framed x frame) (hi : a.get? x = some i)
    (hf : i.father = some f) :
    ∃ outer, a.Framed f outer ∧ frame = outer.place i.position i.rotation := by
  cases h with
  | root hi' hf' =>
    rw [hi] at hi'
    cases hi'
    rw [hf] at hf'
    cases hf'
  | child hi' hf' hup =>
    rw [hi] at hi'
    cases hi'
    rw [hf] at hf'
    cases hf'
    exact ⟨_, hup, rfl⟩

/-- **An instance has one place at most.** -/
theorem unique {frame frame' : Frame} (h : a.Framed x frame) (h' : a.Framed x frame') :
    frame = frame' := by
  induction h generalizing frame' with
  | root hi hf => exact (h'.eq_of_root hi hf).symm
  | child hi hf _ ih =>
    obtain ⟨outer, hup, rfl⟩ := h'.exists_outer hi hf
    rw [ih hup]

end Framed

namespace Forest

/-- A father was created before its child. -/
theorem orderOf_father_lt (h : a.Forest) (hf : a.IsFather f x) : a.orderOf f < a.orderOf x := by
  obtain ⟨i, hi, hif⟩ := isFather_iff.mp hf
  obtain ⟨j, hj, -⟩ := h.father hi hif
  rw [orderOf_eq hi, orderOf_eq hj]
  exact h.fatherFirst hi hif hj

/-- **There is no way up without an end.** -/
theorem wellFounded (h : a.Forest) : WellFounded a.IsFather :=
  Subrelation.wf (fun hf => h.orderOf_father_lt hf) (measure a.orderOf).wf

end Forest

namespace Ascent

/-- A walk that never stops goes the whole way. -/
theorem climbs (h : a.Ascent x ids) (d : InstanceId) :
    a.Climbs (fun _ => true) x (ids.getLastD d) := by
  induction h generalizing d with
  | root hi hf => exact .top hi hf
  | @child x f i ids hi hf _ ih =>
    rw [List.getLastD_cons]
    exact .up hi hf rfl (ih x)

/-- Places are reckoned along the way, from its end on. -/
theorem framed (h : a.Ascent x ids) :
    a.Framed x (ids.foldr (fun node frame =>
      match a.get? node with
      | some i => frame.place i.position i.rotation
      | none => frame) Frame.base) := by
  induction h with
  | root hi hf =>
    simp only [List.foldr_cons, List.foldr_nil, hi]
    exact .root hi hf
  | child hi hf _ ih =>
    rw [List.foldr_cons, hi]
    exact .child hi hf ih

end Ascent

namespace Forest

/-- **The root above an instance is where the way up ends.** -/
theorem climbs_rootOf (h : a.Forest) (hi : a.get? x = some i) :
    a.Climbs (fun _ => true) x (a.rootOf x) :=
  (h.ascent_path hi).climbs x

/-- **The frame of an instance is its place in space.** -/
theorem framed_frameOf (h : a.Forest) (hi : a.get? x = some i) : a.Framed x (a.frameOf x) :=
  (h.ascent_path hi).framed

/-- A pick that may climb past all instances created before climbs as far as it should. -/
theorem climbs_pickTo (h : a.Forest) {limit : Nat} (hi : a.get? x = some i)
    (hlimit : a.earlier i.order ≤ limit) :
    a.Climbs (·.flags.hierSelectable) x (a.pickTo limit x) := by
  induction limit generalizing x i with
  | zero => exact .top hi (h.father_eq_none hi (Nat.le_zero.mp hlimit))
  | succ limit ih =>
    simp only [pickTo, hi]
    cases hf : i.father with
    | none => exact .top hi hf
    | some f =>
      cases hgoes : i.flags.hierSelectable with
      | false => exact .stay hi hgoes
      | true =>
        obtain ⟨j, hj, hlt⟩ := h.earlier_father_lt hi hf
        exact .up hi hf hgoes (ih hj (by omega))

/-- **A pick means the first instance above that does not pass it on.** -/
theorem climbs_pickTarget (h : a.Forest) (hi : a.get? x = some i) :
    a.Climbs (·.flags.hierSelectable) x (a.pickTarget x) :=
  h.climbs_pickTo hi (earlier_le_depthLimit _)

/-! ## Upward and downward -/

/-- A father has his child among his children. -/
theorem isFather_iff_mem_childrenOf (h : a.Forest) : a.IsFather f x ↔ x ∈ a.childrenOf f := by
  rw [isFather_iff]
  constructor
  · rintro ⟨i, hi, hf⟩
    exact (h.mem_childrenOf hi).mpr hf
  · intro hx
    obtain ⟨-, j, -, hj, hf, -⟩ := h.child_of_childrenOf hx
    exact ⟨j, hj, hf⟩

/-- What lies under an instance is what leads up to it. -/
theorem under_iff (h : a.Forest) :
    a.Under x y ↔ Relation.ReflTransGen (fun y f => a.IsFather f y) y x := by
  constructor
  · intro hxy
    induction hxy with
    | self => exact .refl
    | child _ hc ih => exact .head (h.isFather_iff_mem_childrenOf.mpr hc) ih
  · intro hup
    induction hup using Relation.ReflTransGen.head_induction_on with
    | refl => exact .self
    | head hf _ ih => exact .child ih (h.isFather_iff_mem_childrenOf.mp hf)

/-- **A subtree is made up of what leads up to its top.** -/
theorem mem_preorder_iff (h : a.Forest) :
    y ∈ a.preorder x ↔ Relation.ReflTransGen (fun y f => a.IsFather f y) y x :=
  h.mem_preorder.trans h.under_iff

/-- Where a walk that never stops ends, there is a root. -/
theorem root_of_climbs (h : a.Forest) (hclimbs : a.Climbs (fun _ => true) y r) :
    r ∈ a.roots ∧ a.Under r y := by
  induction hclimbs with
  | top hi hf => exact ⟨h.root.mpr ⟨_, hi, hf⟩, .self⟩
  | stay _ hstop => cases hstop
  | up hi hf _ _ ih => exact ⟨ih.1, .of_father h ih.2 hi hf⟩

/-- **Different roots have nothing in common under them.** -/
theorem eq_of_roots (h : a.Forest) (hr : r ∈ a.roots) (hr' : r' ∈ a.roots) (hy : a.Under r y)
    (hy' : a.Under r' y) : r = r' := by
  rcases hy.comparable h hy' with hunder | hunder
  · exact hunder.eq_of_root h hr'
  · exact (hunder.eq_of_root h hr).symm

/-- **The root above an instance is the one root whose subtree has it.** -/
theorem mem_preorder_root_iff (h : a.Forest) (hi : a.get? y = some i) :
    r ∈ a.roots ∧ y ∈ a.preorder r ↔ r = a.rootOf y := by
  obtain ⟨hroot, hunder⟩ := h.root_of_climbs (h.climbs_rootOf hi)
  constructor
  · rintro ⟨hr, hy⟩
    exact h.eq_of_roots hr hroot (h.mem_preorder.mp hy) hunder
  · rintro rfl
    exact ⟨hroot, h.mem_preorder.mpr hunder⟩

/-- **The subtrees of the roots have no instance twice.** -/
theorem nodup_trees (h : a.Forest) : (a.roots.flatMap a.preorder).Nodup := by
  refine List.pairwise_flatMap.mpr ⟨fun r _ => (h.preorder_preorder r).nodup h, ?_⟩
  refine h.roots_nodup.imp_of_mem ?_
  rintro r r' hr hr' hne y hy _ hy' rfl
  exact hne (h.eq_of_roots hr hr' (h.mem_preorder.mp hy) (h.mem_preorder.mp hy'))

/-- **The subtrees of the roots have every instance.** -/
theorem mem_trees (h : a.Forest) : y ∈ a.roots.flatMap a.preorder ↔ ∃ i, a.get? y = some i := by
  rw [List.mem_flatMap]
  constructor
  · rintro ⟨r, hr, hy⟩
    obtain ⟨i, hi⟩ := h.present_of_mem_roots hr
    exact (h.mem_preorder.mp hy).present h hi
  · rintro ⟨i, hi⟩
    exact ⟨_, (h.mem_preorder_root_iff hi).mpr rfl⟩

end Forest

end ProductModel.Arena
