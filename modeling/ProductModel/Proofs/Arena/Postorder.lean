import ProductModel.Proofs.Arena.Growth

/-!
# Children before their father

`Arena.Postorder` says what it is for a list to be a subtree in post-order, by the tree alone and
without a bound: the lists of the children one after the other, in the order in which the children
are listed, and then the instance itself.  There is one such list at most (`Postorder.unique`).

In a forest `Arena.postorder` is that list (`Forest.postorder_postorder`).  It lists every instance
once, because the subtrees of different children have nothing in common (`Under.eq_of_siblings`).
-/

namespace ProductModel.Arena

variable {β : Type} {a b : Arena β} {x y c d f : InstanceId} {ids ids' : List InstanceId}

/-- **A subtree in post-order**: what the children have under them, child by child, and then the
instance. -/
inductive Postorder (a : Arena β) : InstanceId → List InstanceId → Prop
  | node {x : InstanceId} (below : InstanceId → List InstanceId) :
      (∀ c ∈ a.childrenOf x, Postorder a c (below c)) →
      Postorder a x ((a.childrenOf x).flatMap below ++ [x])

namespace Postorder

/-- The tree leaves no choice. -/
theorem unique (h : a.Postorder x ids) (h' : a.Postorder x ids') : ids = ids' := by
  induction h generalizing ids' with
  | node below _ ih =>
    cases h' with
    | node below' h' =>
      rw [List.flatMap_def, List.flatMap_def,
        List.map_congr_left fun c hc => ih c hc (h' c hc)]

/-- Only children are looked at. -/
theorem congr (h : a.Postorder x ids) (hchildren : ∀ y, b.childrenOf y = a.childrenOf y) :
    b.Postorder x ids := by
  induction h with
  | node below _ ih =>
    rw [← hchildren]
    refine .node below fun c hc => ih c ?_
    rwa [← hchildren]

/-- The instance comes last. -/
theorem getLast?_eq (h : a.Postorder x ids) : ids.getLast? = some x := by
  cases h
  exact List.getLast?_concat

/-- What is listed is what lies under the instance. -/
theorem mem_iff (h : a.Postorder x ids) : y ∈ ids ↔ a.Under x y := by
  induction h with
  | node below _ ih =>
    rw [List.mem_append, List.mem_flatMap, List.mem_singleton]
    constructor
    · rintro (⟨c, hc, hy⟩ | rfl)
      · exact .of_child hc ((ih c hc).mp hy)
      · exact .self
    · intro hy
      rcases hy.eq_or_child with rfl | ⟨c, hc, hcy⟩
      · exact Or.inr rfl
      · exact Or.inl ⟨c, hc, (ih c hc).mpr hcy⟩

end Postorder

/-! ## Subtrees side by side -/

namespace Under

/-- Of two instances above a third one, one is above the other. -/
theorem comparable (ha : a.Forest) (hc : a.Under c y) (hd : a.Under d y) :
    a.Under c d ∨ a.Under d c := by
  induction hc with
  | self => exact Or.inr hd
  | child hcf hy ih =>
    rcases hd.eq_or_father with rfl | ⟨g, hdg, hyg⟩
    · exact Or.inl (.child hcf hy)
    · -- An instance is a child of one father only.
      obtain ⟨_, j, -, hj, hf, -⟩ := ha.child_of_childrenOf hy
      have hg := (ha.mem_childrenOf hj).mp hyg
      rw [hf] at hg
      cases hg
      exact ih hdg

/-- Nothing lies under its own child. -/
theorem not_of_child (ha : a.Forest) (hc : c ∈ a.childrenOf x) : ¬a.Under c x := by
  intro hu
  obtain ⟨i, j, hi, hj, -, hlt⟩ := ha.child_of_childrenOf hc
  have hle := hu.order_le ha
  rw [orderOf_eq hi, orderOf_eq hj] at hle
  omega

/-- **Different children have nothing in common under them.** -/
theorem eq_of_siblings (ha : a.Forest) (hc : c ∈ a.childrenOf x) (hd : d ∈ a.childrenOf x)
    (hcy : a.Under c y) (hdy : a.Under d y) : c = d := by
  -- One child under another would have their father under the other child as well.
  have hapart : ∀ {c d : InstanceId}, c ∈ a.childrenOf x → d ∈ a.childrenOf x →
      a.Under c d → d = c := by
    intro c d hc hd hcd
    obtain ⟨_, j, -, hj, hf, -⟩ := ha.child_of_childrenOf hd
    refine Decidable.byContradiction fun hne => ?_
    exact not_of_child ha hc (hcd.father ha hne hj hf)
  rcases comparable ha hcy hdy with h | h
  · exact (hapart hc hd h).symm
  · exact hapart hd hc h

end Under

/-! ## The walk -/

/-- The children of an instance are listed in order of creation. -/
theorem Forest.childrenOf_sorted (h : a.Forest) (x : InstanceId) :
    (a.childrenOf x).Pairwise fun c d => a.orderOf c < a.orderOf d := by
  unfold childrenOf
  cases hi : a.get? x with
  | none => exact List.Pairwise.nil
  | some i => exact h.childrenSorted hi

/-- A walk down whose bound is at least the measure is in post-order. -/
theorem Forest.postorder_postorderTo (h : a.Forest) {limit : Nat}
    (hlimit : a.later (a.orderOf x) ≤ limit) : a.Postorder x (a.postorderTo limit x) := by
  induction limit generalizing x with
  | zero =>
    have hchildren := h.childrenOf_eq_nil (Nat.le_zero.mp hlimit)
    have hnode := Postorder.node (a := a) (x := x) (fun _ => []) (by simp [hchildren])
    rwa [hchildren, List.flatMap_nil] at hnode
  | succ limit ih =>
    rw [postorderTo]
    refine .node _ fun c hc => ih ?_
    have := h.later_child_lt hc
    omega

/-- **The walk of a subtree lists it in post-order.** -/
theorem Forest.postorder_postorder (h : a.Forest) (x : InstanceId) :
    a.Postorder x (a.postorder x) :=
  h.postorder_postorderTo (later_le_depthLimit _)

/-- **In a forest, post-order lists every instance once.** -/
theorem Postorder.nodup (h : a.Postorder x ids) (ha : a.Forest) : ids.Nodup := by
  induction h with
  | @node x below hbelow ih =>
    have hunder : ∀ {c y}, c ∈ a.childrenOf x → y ∈ below c → a.Under c y :=
      fun hc hy => (hbelow _ hc).mem_iff.mp hy
    refine List.nodup_append.mpr ⟨List.pairwise_flatMap.mpr ⟨ih, ?_⟩, by simp, ?_⟩
    · refine (nodup_of_sorted (ha.childrenOf_sorted x)).imp_of_mem ?_
      rintro c d hc hd hne y hyc _ hyd rfl
      exact hne (Under.eq_of_siblings ha hc hd (hunder hc hyc) (hunder hd hyd))
    · intro y hy z hz
      obtain ⟨c, hc, hyc⟩ := List.mem_flatMap.mp hy
      rw [List.mem_singleton.mp hz]
      rintro rfl
      exact Under.not_of_child ha hc (hunder hc hyc)

end ProductModel.Arena
