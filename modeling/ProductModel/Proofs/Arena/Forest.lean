import ProductModel.Instance.Tree
import ProductModel.Proofs.Arena.Lookup

/-!
# The forest of instances

Fathers, lists of children and the list of roots are kept side by side.  `Arena.Forest` says that
they describe one forest: each of the three can be read off the others, and the order of creation
increases downward and along every list.

The walks of `ProductModel.Instance.Tree` are bounded by the number of slots.  In a forest the bound
is never reached, because the instances on a way down have increasing order numbers:

* `Arena.Under a x y` says that `y` is `x` or lies below it, without any bound;
* `Forest.mem_preorder` and `Forest.mem_postorder` say that the walks list exactly these;
* `Arena.later` is the measure: the number of instances created after a given moment.
-/

namespace ProductModel.Arena

variable {β : Type} {a : Arena β} {x y c f r : InstanceId} {i j : Instance β}

/-- The place of an instance in the order of creation. -/
def orderOf (a : Arena β) (id : InstanceId) : Nat := ((a.get? id).map (·.order)).getD 0

/-- **One forest**, described by fathers, by children and by roots alike. -/
structure Forest (a : Arena β) : Prop where
  /-- a child is there and has the instance as its father -/
  child : ∀ {x i c}, a.get? x = some i → c ∈ i.children →
    ∃ j, a.get? c = some j ∧ j.father = some x
  /-- a father is there and has the instance among its children -/
  father : ∀ {x i f}, a.get? x = some i → i.father = some f →
    ∃ j, a.get? f = some j ∧ x ∈ j.children
  /-- the roots are the instances without a father -/
  root : ∀ {x}, x ∈ a.roots ↔ ∃ i, a.get? x = some i ∧ i.father = none
  childrenSorted : ∀ {x i}, a.get? x = some i →
    i.children.Pairwise fun c d => a.orderOf c < a.orderOf d
  rootsSorted : a.roots.Pairwise fun c d => a.orderOf c < a.orderOf d
  fatherFirst : ∀ {x i f j}, a.get? x = some i → i.father = some f → a.get? f = some j →
    j.order < i.order

theorem orderOf_eq (h : a.get? x = some i) : a.orderOf x = i.order := by
  rw [orderOf, h]
  rfl

theorem childrenOf_eq (h : a.get? x = some i) : a.childrenOf x = i.children := by
  rw [childrenOf, h]
  rfl

/-- The subtree of an instance without children. -/
theorem preorder_of_childless (h : a.childrenOf x = []) : a.preorder x = [x] := by
  unfold preorder
  cases a.depthLimit with
  | zero => rfl
  | succ limit => rw [preorderTo, h, List.flatMap_nil]

theorem postorder_of_childless (h : a.childrenOf x = []) : a.postorder x = [x] := by
  unfold postorder
  cases a.depthLimit with
  | zero => rfl
  | succ limit => rw [postorderTo, h, List.flatMap_nil, List.nil_append]

/-- What is listed in order of creation is listed once. -/
theorem nodup_of_sorted {ids : List InstanceId}
    (h : ids.Pairwise fun c d => a.orderOf c < a.orderOf d) : ids.Nodup := by
  refine h.imp ?_
  intro c d hlt heq
  rw [heq] at hlt
  exact Nat.lt_irrefl _ hlt

/-- An instance that has children is there. -/
theorem exists_get?_of_mem_childrenOf (h : c ∈ a.childrenOf x) :
    ∃ i, a.get? x = some i ∧ c ∈ i.children := by
  unfold childrenOf at h
  cases hi : a.get? x with
  | none => simp [hi] at h
  | some i =>
    rw [hi] at h
    exact ⟨i, rfl, h⟩

theorem forest_empty : (empty : Arena β).Forest where
  child h := by
    rw [get?_empty] at h
    cases h
  father h := by
    rw [get?_empty] at h
    cases h
  root := by
    intro x
    rw [get?_empty]
    simp [empty]
  childrenSorted h := by
    rw [get?_empty] at h
    cases h
  rootsSorted := List.Pairwise.nil
  fatherFirst h := by
    rw [get?_empty] at h
    cases h

namespace Forest

theorem child_of_childrenOf (h : a.Forest) (hc : c ∈ a.childrenOf x) :
    ∃ i j, a.get? x = some i ∧ a.get? c = some j ∧ j.father = some x ∧ i.order < j.order := by
  obtain ⟨i, hi, hmem⟩ := exists_get?_of_mem_childrenOf hc
  obtain ⟨j, hj, hf⟩ := h.child hi hmem
  exact ⟨i, j, hi, hj, hf, h.fatherFirst hj hf hi⟩

/-- **An instance is a child of its father and of no other instance.** -/
theorem mem_childrenOf (h : a.Forest) (hi : a.get? x = some i) :
    x ∈ a.childrenOf f ↔ i.father = some f := by
  constructor
  · intro hx
    obtain ⟨-, j, -, hj, hf, -⟩ := h.child_of_childrenOf hx
    rw [hi] at hj
    cases hj
    exact hf
  · intro hf
    obtain ⟨j, hj, hmem⟩ := h.father hi hf
    rwa [childrenOf_eq hj]

/-- A child is listed once. -/
theorem children_nodup (h : a.Forest) (hi : a.get? x = some i) : i.children.Nodup :=
  nodup_of_sorted (h.childrenSorted hi)

/-- A root is listed once. -/
theorem roots_nodup (h : a.Forest) : a.roots.Nodup :=
  nodup_of_sorted h.rootsSorted

theorem present_of_mem_children (h : a.Forest) (hi : a.get? x = some i) (hc : c ∈ i.children) :
    ∃ j, a.get? c = some j := by
  obtain ⟨j, hj, -⟩ := h.child hi hc
  exact ⟨j, hj⟩

theorem present_of_mem_roots (h : a.Forest) (hx : x ∈ a.roots) : ∃ i, a.get? x = some i := by
  obtain ⟨i, hi, -⟩ := h.root.mp hx
  exact ⟨i, hi⟩

end Forest

/-! ## Lying below an instance -/

/-- **What an instance has under it**: itself, and the children of what it has under it. -/
inductive Under (a : Arena β) (x : InstanceId) : InstanceId → Prop
  | self : Under a x x
  | child {y c : InstanceId} : Under a x y → c ∈ a.childrenOf y → Under a x c

namespace Under

/-- What lies under a child lies under its father. -/
theorem of_child (hc : c ∈ a.childrenOf x) (h : a.Under c y) : a.Under x y := by
  induction h with
  | self => exact .child .self hc
  | child _ hd ih => exact .child ih hd

/-- The first step on the way down. -/
theorem eq_or_child (h : a.Under x y) : y = x ∨ ∃ c ∈ a.childrenOf x, a.Under c y := by
  induction h with
  | self => exact Or.inl rfl
  | child hxy hc ih =>
    rcases ih with rfl | ⟨d, hd, hdy⟩
    · exact Or.inr ⟨_, hc, .self⟩
    · exact Or.inr ⟨d, hd, .child hdy hc⟩

/-- The last step on the way down. -/
theorem eq_or_father (h : a.Under x y) : y = x ∨ ∃ f, a.Under x f ∧ y ∈ a.childrenOf f := by
  cases h with
  | self => exact Or.inl rfl
  | child hxy hc => exact Or.inr ⟨_, hxy, hc⟩

/-- What lies under an instance that is there is there. -/
theorem present (h : a.Under x y) (ha : a.Forest) (hx : a.get? x = some i) :
    ∃ j, a.get? y = some j := by
  rcases h.eq_or_father with rfl | ⟨f, -, hf⟩
  · exact ⟨i, hx⟩
  · obtain ⟨-, j, -, hj, -⟩ := ha.child_of_childrenOf hf
    exact ⟨j, hj⟩

/-- What lies under an instance was created no earlier. -/
theorem order_le (h : a.Under x y) (ha : a.Forest) : a.orderOf x ≤ a.orderOf y := by
  induction h with
  | self => exact Nat.le_refl _
  | child _ hc ih =>
    obtain ⟨p, q, hp, hq, _, hlt⟩ := ha.child_of_childrenOf hc
    rw [orderOf_eq hp] at ih
    rw [orderOf_eq hq]
    omega

/-- A father lies above what its children have under them. -/
theorem of_father (ha : a.Forest) (h : a.Under x f) (hy : a.get? y = some i)
    (hf : i.father = some f) : a.Under x y :=
  .child h ((ha.mem_childrenOf hy).mpr hf)

/-- Below the top, the father of what lies under an instance lies under it too. -/
theorem father (ha : a.Forest) (h : a.Under x y) (hne : y ≠ x) (hy : a.get? y = some i)
    (hf : i.father = some f) : a.Under x f := by
  rcases h.eq_or_father with rfl | ⟨g, hg, hyg⟩
  · exact absurd rfl hne
  · have hfather := (ha.mem_childrenOf hy).mp hyg
    rw [hf] at hfather
    cases hfather
    exact hg

/-- Nothing lies above a root. -/
theorem eq_of_root (h : a.Under x r) (ha : a.Forest) (hr : r ∈ a.roots) : x = r := by
  rcases h.eq_or_father with rfl | ⟨f, -, hrf⟩
  · rfl
  · obtain ⟨i, hi, hroot⟩ := ha.root.mp hr
    have hfather := (ha.mem_childrenOf hi).mp hrf
    rw [hroot] at hfather
    cases hfather

end Under

/-! ## The walks reach everything -/

/-- The number of instances created after a moment. -/
def later (a : Arena β) (moment : Nat) : Nat :=
  a.slots.countP fun s => s.content.any fun i => moment < i.order

theorem later_le_depthLimit (moment : Nat) : a.later moment ≤ a.depthLimit :=
  List.countP_le_length

/-- Fewer instances are counted by their order if an instance counts no more. -/
theorem countP_order_lt {p q : Nat → Bool} (hpq : ∀ n, p n = true → q n = true)
    (hy : a.get? y = some i) (hp : p i.order = false) (hq : q i.order = true) :
    a.slots.countP (fun s => s.content.any fun k => p k.order) <
      a.slots.countP (fun s => s.content.any fun k => q k.order) := by
  have hmem : (⟨y.generation, some i⟩ : Slot β) ∈ a.slots :=
    List.mem_of_getElem? (get?_eq_some_iff.mp hy)
  obtain ⟨before, after, hsplit⟩ := List.append_of_mem hmem
  have hmono : ∀ slots : List (Slot β),
      slots.countP (fun s => s.content.any fun k => p k.order) ≤
        slots.countP (fun s => s.content.any fun k => q k.order) := by
    intro slots
    apply List.countP_mono_left
    intro s _ hs
    rw [Option.any_eq_true] at hs ⊢
    obtain ⟨k, hk, hcounts⟩ := hs
    exact ⟨k, hk, hpq _ hcounts⟩
  rw [hsplit, List.countP_append, List.countP_append, List.countP_cons, List.countP_cons]
  have hb := hmono before
  have ha := hmono after
  simp only [Option.any_some, hp, hq, if_true, Bool.false_eq_true, if_false]
  omega

/-- Fewer instances were created after an instance than after a moment before it. -/
theorem later_lt (hy : a.get? y = some i) {moment : Nat} (h : moment < i.order) :
    a.later i.order < a.later moment := by
  refine countP_order_lt (p := fun n => i.order < n) (q := fun n => moment < n) ?_ hy ?_ ?_
  · intro n hn
    simp only [decide_eq_true_eq] at *
    omega
  · simp
  · simpa using h

namespace Forest

/-- Fewer instances were created after a child than after its father. -/
theorem later_child_lt (h : a.Forest) (hc : c ∈ a.childrenOf x) :
    a.later (a.orderOf c) < a.later (a.orderOf x) := by
  obtain ⟨i, j, hi, hj, _, hlt⟩ := h.child_of_childrenOf hc
  rw [orderOf_eq hi, orderOf_eq hj]
  exact later_lt hj hlt

/-- Where nothing was created later there are no children. -/
theorem childrenOf_eq_nil (h : a.Forest) (hlater : a.later (a.orderOf x) = 0) :
    a.childrenOf x = [] := by
  rw [List.eq_nil_iff_forall_not_mem]
  intro c hc
  have := h.later_child_lt hc
  omega

/-- A walk down whose bound is at least the measure lists what lies under its top. -/
theorem mem_preorderTo (h : a.Forest) {limit : Nat} (hlimit : a.later (a.orderOf x) ≤ limit) :
    y ∈ a.preorderTo limit x ↔ a.Under x y := by
  induction limit generalizing x with
  | zero =>
    -- The bound is used up where nothing was created later, so the top has no children.
    rw [preorderTo, List.mem_singleton]
    constructor
    · rintro rfl
      exact .self
    · intro hxy
      rcases hxy.eq_or_child with rfl | ⟨c, hc, -⟩
      · rfl
      · have := h.later_child_lt hc
        omega
  | succ limit ih =>
    rw [preorderTo, List.mem_cons, List.mem_flatMap]
    constructor
    · rintro (rfl | ⟨c, hc, hy⟩)
      · exact .self
      · have := h.later_child_lt hc
        exact .of_child hc ((ih (by omega)).mp hy)
    · intro hxy
      rcases hxy.eq_or_child with rfl | ⟨c, hc, hcy⟩
      · exact Or.inl rfl
      · have := h.later_child_lt hc
        exact Or.inr ⟨c, hc, (ih (by omega)).mpr hcy⟩

theorem mem_postorderTo (h : a.Forest) {limit : Nat} (hlimit : a.later (a.orderOf x) ≤ limit) :
    y ∈ a.postorderTo limit x ↔ a.Under x y := by
  induction limit generalizing x with
  | zero =>
    rw [postorderTo, ← h.mem_preorderTo hlimit, preorderTo]
  | succ limit ih =>
    rw [postorderTo, List.mem_append, List.mem_flatMap, List.mem_singleton]
    constructor
    · rintro (⟨c, hc, hy⟩ | rfl)
      · have := h.later_child_lt hc
        exact .of_child hc ((ih (by omega)).mp hy)
      · exact .self
    · intro hxy
      rcases hxy.eq_or_child with rfl | ⟨c, hc, hcy⟩
      · exact Or.inr rfl
      · have := h.later_child_lt hc
        exact Or.inl ⟨c, hc, (ih (by omega)).mpr hcy⟩

/-- **The subtree of an instance** lists what lies under it. -/
theorem mem_preorder (h : a.Forest) : y ∈ a.preorder x ↔ a.Under x y :=
  h.mem_preorderTo (later_le_depthLimit _)

/-- **The subtree with fathers last** lists what lies under the instance. -/
theorem mem_postorder (h : a.Forest) : y ∈ a.postorder x ↔ a.Under x y :=
  h.mem_postorderTo (later_le_depthLimit _)

/-- What is met on the way up from a present instance is present. -/
theorem present_of_mem_climb (h : a.Forest) {limit : Nat} (hx : a.get? x = some i)
    (hy : y ∈ a.climb limit x) : ∃ j, a.get? y = some j := by
  induction limit generalizing x i with
  | zero =>
    rw [climb, List.mem_singleton] at hy
    exact ⟨i, by rw [hy, hx]⟩
  | succ limit ih =>
    rw [climb] at hy
    cases hf : a.father? x with
    | none =>
      rw [hf] at hy
      exact ⟨i, by rw [List.mem_singleton.mp hy, hx]⟩
    | some f =>
      rw [hf] at hy
      rcases List.mem_cons.mp hy with rfl | hy
      · exact ⟨i, hx⟩
      · rw [father?, hx] at hf
        obtain ⟨j, hj, -⟩ := h.father hx hf
        exact ih hj hy

/-- **The root above a present instance** is present. -/
theorem present_rootOf (h : a.Forest) (hx : a.get? x = some i) :
    ∃ j, a.get? (a.rootOf x) = some j := by
  rw [rootOf, List.getLastD_eq_getLast?]
  cases hlast : (a.path x).getLast? with
  | none => exact ⟨i, hx⟩
  | some r => exact h.present_of_mem_climb hx (List.mem_of_getLast? hlast)

end Forest

end ProductModel.Arena
