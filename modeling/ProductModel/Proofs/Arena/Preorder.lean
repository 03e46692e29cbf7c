import ProductModel.Proofs.Arena.Postorder

/-!
# Fathers before their children

`Arena.Preorder` says what it is for a list to be a subtree in pre-order, by the tree alone and
without a bound: the instance itself, and then the lists of the children one after the other, in the
order in which the children were created.  There is one such list at most (`Preorder.unique`).

In a forest `Arena.preorder` is that list (`Forest.preorder_preorder`), and it lists every instance
once (`Preorder.nodup`).

`Arena.Unwinds` is the listing by a stack, which knows nothing of levels.  It comes to an end, and
lists the subtrees of what is on the stack one after the other (`Forest.unwinds_iff`).
-/

namespace ProductModel.Arena

variable {β : Type} {a : Arena β} {x y c : InstanceId} {ids ids' : List InstanceId}

/-- **A subtree in pre-order**: the instance, and then what its children have under them, child by
child in order of creation. -/
inductive Preorder (a : Arena β) : InstanceId → List InstanceId → Prop
  | node {x : InstanceId} (below : InstanceId → List InstanceId) :
      ((a.childrenOf x).Pairwise fun c d => a.orderOf c < a.orderOf d) →
      (∀ c ∈ a.childrenOf x, Preorder a c (below c)) →
      Preorder a x (x :: (a.childrenOf x).flatMap below)

namespace Preorder

/-- The tree leaves no choice. -/
theorem unique (h : a.Preorder x ids) (h' : a.Preorder x ids') : ids = ids' := by
  induction h generalizing ids' with
  | node below _ _ ih =>
    cases h' with
    | node below' _ h' =>
      rw [List.flatMap_def, List.flatMap_def,
        List.map_congr_left fun c hc => ih c hc (h' c hc)]

/-- What is listed is what lies under the instance. -/
theorem mem_iff (h : a.Preorder x ids) : y ∈ ids ↔ a.Under x y := by
  induction h with
  | node below _ _ ih =>
    rw [List.mem_cons, List.mem_flatMap]
    constructor
    · rintro (rfl | ⟨c, hc, hy⟩)
      · exact .self
      · exact .of_child hc ((ih c hc).mp hy)
    · intro hy
      rcases hy.eq_or_child with rfl | ⟨c, hc, hcy⟩
      · exact Or.inl rfl
      · exact Or.inr ⟨c, hc, (ih c hc).mpr hcy⟩

/-- **In a forest, pre-order lists every instance once.** -/
theorem nodup (h : a.Preorder x ids) (ha : a.Forest) : ids.Nodup := by
  induction h with
  | @node x below hsorted hbelow ih =>
    have hunder : ∀ {c y}, c ∈ a.childrenOf x → y ∈ below c → a.Under c y :=
      fun hc hy => (hbelow _ hc).mem_iff.mp hy
    refine List.nodup_cons.mpr ⟨?_, List.pairwise_flatMap.mpr ⟨ih, ?_⟩⟩
    · intro hx
      obtain ⟨c, hc, hxc⟩ := List.mem_flatMap.mp hx
      exact Under.not_of_child ha hc (hunder hc hxc)
    · refine (nodup_of_sorted hsorted).imp_of_mem ?_
      rintro c d hc hd hne y hyc _ hyd rfl
      exact hne (Under.eq_of_siblings ha hc hd (hunder hc hyc) (hunder hd hyd))

end Preorder

/-- A walk down whose bound is at least the measure is in pre-order. -/
theorem Forest.preorder_preorderTo (h : a.Forest) {limit : Nat}
    (hlimit : a.later (a.orderOf x) ≤ limit) : a.Preorder x (a.preorderTo limit x) := by
  induction limit generalizing x with
  | zero =>
    have hchildren := h.childrenOf_eq_nil (Nat.le_zero.mp hlimit)
    have hnode := Preorder.node (a := a) (x := x) (fun _ => []) (h.childrenOf_sorted x)
      (by simp [hchildren])
    rwa [hchildren, List.flatMap_nil] at hnode
  | succ limit ih =>
    rw [preorderTo]
    refine .node _ (h.childrenOf_sorted x) fun c hc => ih ?_
    have := h.later_child_lt hc
    omega

/-- **The walk of a subtree lists it in pre-order.** -/
theorem Forest.preorder_preorder (h : a.Forest) (x : InstanceId) :
    a.Preorder x (a.preorder x) :=
  h.preorder_preorderTo (later_le_depthLimit _)

/-- **The subtree of an instance** is the instance, and then the subtrees of its children. -/
theorem Forest.preorder_eq (h : a.Forest) (x : InstanceId) :
    a.preorder x = x :: (a.childrenOf x).flatMap a.preorder :=
  (h.preorder_preorder x).unique
    (.node a.preorder (h.childrenOf_sorted x) fun c _ => h.preorder_preorder c)

/-! ## Listing by a stack -/

/-- **A listing by a stack.**  What is on top of the stack is listed, and its children take its
place, the first of them on top.  The listing ends with an empty stack. -/
inductive Unwinds (a : Arena β) : List InstanceId → List InstanceId → Prop
  | done : Unwinds a [] []
  | pop {x : InstanceId} {stack ids : List InstanceId} :
      Unwinds a (a.childrenOf x ++ stack) ids → Unwinds a (x :: stack) (x :: ids)

/-- The stack leaves no choice. -/
theorem Unwinds.unique {stack : List InstanceId} (h : a.Unwinds stack ids)
    (h' : a.Unwinds stack ids') : ids = ids' := by
  induction h generalizing ids' with
  | done =>
    cases h'
    rfl
  | pop _ ih =>
    cases h' with
    | pop h' => rw [ih h']

/-- If each of several instances is replaced by a list when it is on top, all of them are replaced
by their lists in turn. -/
theorem Unwinds.append {below : InstanceId → List InstanceId} {xs : List InstanceId}
    (hbelow : ∀ c ∈ xs, ∀ {stack rest}, a.Unwinds stack rest →
      a.Unwinds (c :: stack) (below c ++ rest)) {stack rest : List InstanceId}
    (h : a.Unwinds stack rest) : a.Unwinds (xs ++ stack) (xs.flatMap below ++ rest) := by
  induction xs with
  | nil => exact h
  | cons c cs ih =>
    rw [List.flatMap_cons, List.append_assoc, List.cons_append]
    exact hbelow c List.mem_cons_self (ih fun d hd => hbelow d (List.mem_cons_of_mem c hd))

/-- What is on top of the stack is replaced by its subtree in pre-order. -/
theorem Preorder.unwinds (h : a.Preorder x ids) {stack rest : List InstanceId}
    (hrest : a.Unwinds stack rest) : a.Unwinds (x :: stack) (ids ++ rest) := by
  induction h generalizing stack rest with
  | node below _ _ ih => exact .pop (Unwinds.append (fun c hc => ih c hc) hrest)

/-- **A listing by a stack gives the subtrees of what is on the stack**, and nothing else. -/
theorem Forest.unwinds_iff (h : a.Forest) {stack : List InstanceId} :
    a.Unwinds stack ids ↔ ids = stack.flatMap a.preorder := by
  have hends : a.Unwinds (stack ++ []) (stack.flatMap a.preorder ++ []) :=
    .append (fun c _ => (h.preorder_preorder c).unwinds) .done
  rw [List.append_nil, List.append_nil] at hends
  constructor
  · intro hids
    exact hids.unique hends
  · rintro rfl
    exact hends

end ProductModel.Arena
