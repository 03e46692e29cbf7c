import ProductModel.Proofs.Arena.Forest

/-!
# Growing and cutting a forest

Three kinds of change keep a forest a forest:

* `Forest.congr`: changes that touch neither fathers, nor children, nor the order of creation;
* `Grown.forest`: a new instance without children comes last under its father or among the roots;
* `Pruned.forest`: a subtree goes, and its top leaves its father's children.

`Grown` and `Pruned` say what the last two do to lookups and to the list of roots.  That
`Arena.adopt` after an insertion and `Arena.prune` do just this is shown once, and nothing else
needs to know about slots.
-/

namespace ProductModel

/-- **What the tree reads of an instance.** -/
structure Links where
  father : Option InstanceId
  children : List InstanceId
  order : Nat

namespace Instance

variable {β : Type}

/-- The part of an instance that the tree reads. -/
def links (i : Instance β) : Links := ⟨i.father, i.children, i.order⟩

theorem links_eq_iff {i j : Instance β} :
    i.links = j.links ↔ i.father = j.father ∧ i.children = j.children ∧ i.order = j.order := by
  simp [links]

/-- An instance with one more child, which comes last. -/
def withChild (i : Instance β) (id : InstanceId) : Instance β :=
  { i with children := i.children ++ [id] }

/-- An instance without one of its children. -/
def withoutChild (i : Instance β) (id : InstanceId) : Instance β :=
  { i with children := i.children.filter (· ≠ id) }

end Instance

namespace Arena

variable {β : Type} {a b : Arena β} {id x y c f : InstanceId} {i j k : Instance β}

/-- Arenas with the same links have the same instances. -/
theorem exists_get?_of_links
    (h : (b.get? x).map Instance.links = (a.get? x).map Instance.links)
    (hi : a.get? x = some i) :
    ∃ j, b.get? x = some j ∧ j.father = i.father ∧ j.children = i.children ∧
      j.order = i.order := by
  obtain ⟨j, hj, hl⟩ := exists_get?_of_map_eq h hi
  exact ⟨j, hj, Instance.links_eq_iff.mp hl⟩

theorem orderOf_of_links
    (h : (b.get? x).map Instance.links = (a.get? x).map Instance.links) :
    b.orderOf x = a.orderOf x := by
  have horder : ∀ d : Arena β,
      d.orderOf x = (((d.get? x).map Instance.links).map (·.order)).getD 0 := by
    intro d
    rw [Option.map_map]
    rfl
  rw [horder, horder, h]

/-- **A change that keeps all links** keeps the forest. -/
theorem Forest.congr (h : a.Forest) (hroots : b.roots = a.roots)
    (hlinks : ∀ x, (b.get? x).map Instance.links = (a.get? x).map Instance.links) :
    b.Forest := by
  have horder : ∀ x, b.orderOf x = a.orderOf x := fun x => orderOf_of_links (hlinks x)
  -- A clause is carried over along the links: back to what it is given, forth to what it claims.
  have forth := fun {x i} (hi : a.get? x = some i) => exists_get?_of_links (hlinks x) hi
  have back := fun {x i} (hi : b.get? x = some i) => exists_get?_of_links (hlinks x).symm hi
  exact {
    child {x i c} hi hc := by
      obtain ⟨i', hi', -, hic, -⟩ := back hi
      obtain ⟨j', hj', hjf⟩ := h.child hi' (by rw [hic]; exact hc)
      obtain ⟨j, hj, hjf', -⟩ := forth hj'
      exact ⟨j, hj, hjf'.trans hjf⟩
    father {x i f} hi hf := by
      obtain ⟨i', hi', hif, -⟩ := back hi
      obtain ⟨j', hj', hmem⟩ := h.father hi' (hif.trans hf)
      obtain ⟨j, hj, -, hjc, -⟩ := forth hj'
      exact ⟨j, hj, by rw [hjc]; exact hmem⟩
    root := by
      intro x
      rw [hroots, h.root]
      constructor
      · rintro ⟨i, hi, hf⟩
        obtain ⟨j, hj, hjf, -⟩ := forth hi
        exact ⟨j, hj, hjf.trans hf⟩
      · rintro ⟨i, hi, hf⟩
        obtain ⟨j, hj, hjf, -⟩ := back hi
        exact ⟨j, hj, hjf.trans hf⟩
    childrenSorted {x i} hi := by
      obtain ⟨j, hj, -, hjc, -⟩ := back hi
      rw [← hjc]
      exact (h.childrenSorted hj).imp fun hlt => by rw [horder, horder]; exact hlt
    rootsSorted := by
      rw [hroots]
      exact h.rootsSorted.imp fun hlt => by rw [horder, horder]; exact hlt
    fatherFirst {x i f j} hi hf hj := by
      obtain ⟨i', hi', hif, -, hio⟩ := back hi
      obtain ⟨j', hj', -, -, hjo⟩ := back hj
      rw [← hio, ← hjo]
      exact h.fatherFirst hi' (hif.trans hf) hj' }

/-! ## A new instance -/

/-- **One instance more**: new, without children, later than all others, and listed last under its
father or among the roots. -/
structure Grown (a b : Arena β) (id : InstanceId) (i : Instance β) : Prop where
  fresh : a.get? id = none
  new : b.get? id = some i
  childless : i.children = []
  latest : ∀ {y j}, a.get? y = some j → j.order < i.order
  father : ∀ {f}, i.father = some f → ∃ j, a.get? f = some j
  kept : ∀ {y}, y ≠ id →
    b.get? y = if i.father = some y then (a.get? y).map (·.withChild id) else a.get? y
  roots : b.roots = if i.father = none then a.roots ++ [id] else a.roots

namespace Grown

theorem ne_of_present (g : Grown a b id i) (hy : a.get? y = some j) : y ≠ id := by
  rintro rfl
  rw [g.fresh] at hy
  cases hy

/-- An instance of before is there, with at most one child more. -/
theorem forth (g : Grown a b id i) (hy : a.get? y = some j) :
    b.get? y = some (if i.father = some y then j.withChild id else j) := by
  rw [g.kept (g.ne_of_present hy), hy]
  split <;> rfl

/-- An instance of afterwards is the new one or was there before. -/
theorem back (g : Grown a b id i) (hy : b.get? y = some k) :
    (y = id ∧ k = i) ∨
      ∃ j, a.get? y = some j ∧ k = if i.father = some y then j.withChild id else j := by
  by_cases hne : y = id
  · rw [hne, g.new] at hy
    exact Or.inl ⟨hne, (Option.some.inj hy).symm⟩
  · right
    cases hj : a.get? y with
    | none =>
      rw [g.kept hne, hj] at hy
      simp at hy
    | some j =>
      rw [g.forth hj] at hy
      exact ⟨j, rfl, (Option.some.inj hy).symm⟩

theorem father_eq (h : k = if i.father = some y then j.withChild id else j) :
    k.father = j.father ∧ k.order = j.order := by
  rw [h]
  split <;> exact ⟨rfl, rfl⟩

theorem children_eq (h : k = if i.father = some y then j.withChild id else j) :
    k.children = if i.father = some y then j.children ++ [id] else j.children := by
  rw [h]
  split <;> rfl

theorem orderOf_eq (g : Grown a b id i) (hy : a.get? y = some j) :
    b.orderOf y = a.orderOf y := by
  rw [Arena.orderOf_eq (g.forth hy), Arena.orderOf_eq hy]
  exact (father_eq rfl).2

/-- A list in order of creation stays one when the new instance is put at its end. -/
theorem sorted_append (g : Grown a b id i) {ys : List InstanceId}
    (hys : ∀ y ∈ ys, ∃ j, a.get? y = some j)
    (hsorted : ys.Pairwise fun c d => a.orderOf c < a.orderOf d) :
    (ys ++ [id]).Pairwise fun c d => b.orderOf c < b.orderOf d := by
  rw [List.pairwise_append]
  refine ⟨?_, List.pairwise_singleton _ _, ?_⟩
  · refine hsorted.imp_of_mem ?_
    intro c d hc hd hlt
    obtain ⟨p, hp⟩ := hys c hc
    obtain ⟨q, hq⟩ := hys d hd
    rw [g.orderOf_eq hp, g.orderOf_eq hq]
    exact hlt
  · intro c hc d hd
    obtain ⟨p, hp⟩ := hys c hc
    rw [List.mem_singleton.mp hd, g.orderOf_eq hp, Arena.orderOf_eq g.new, Arena.orderOf_eq hp]
    exact g.latest hp

theorem sorted (g : Grown a b id i) {ys : List InstanceId}
    (hys : ∀ y ∈ ys, ∃ j, a.get? y = some j)
    (hsorted : ys.Pairwise fun c d => a.orderOf c < a.orderOf d) :
    ys.Pairwise fun c d => b.orderOf c < b.orderOf d :=
  (g.sorted_append hys hsorted).sublist (List.sublist_append_left ys [id])

/-- A member of a list that may have got the new instance at its end. -/
theorem mem_append_cases {p : Prop} [Decidable p] {ys : List InstanceId}
    (h : c ∈ if p then ys ++ [id] else ys) : c ∈ ys ∨ (p ∧ c = id) := by
  split at h
  · rename_i hp
    rcases List.mem_append.mp h with h | h
    · exact Or.inl h
    · exact Or.inr ⟨hp, List.mem_singleton.mp h⟩
  · exact Or.inl h

theorem mem_append_of_mem {p : Prop} [Decidable p] {ys : List InstanceId} (h : c ∈ ys) :
    c ∈ if p then ys ++ [id] else ys := by
  split
  · exact List.mem_append_left _ h
  · exact h

/-- **A new instance** keeps the forest. -/
theorem forest (g : Grown a b id i) (h : a.Forest) : b.Forest where
  child {y k c} hk hc := by
    rcases g.back hk with ⟨-, rfl⟩ | ⟨j, hj, hkj⟩
    · rw [g.childless] at hc
      cases hc
    · -- A child of an instance of before was its child, or is the new instance.
      rw [children_eq hkj] at hc
      rcases mem_append_cases hc with hc | ⟨hf, rfl⟩
      · obtain ⟨q, hq, hqf⟩ := h.child hj hc
        exact ⟨_, g.forth hq, (father_eq rfl).1.trans hqf⟩
      · exact ⟨i, g.new, hf⟩
  father {y k f} hk hf := by
    rcases g.back hk with ⟨rfl, rfl⟩ | ⟨j, hj, hkj⟩
    · obtain ⟨p, hp⟩ := g.father hf
      refine ⟨_, g.forth hp, ?_⟩
      rw [children_eq rfl, if_pos hf]
      exact List.mem_append_right _ List.mem_cons_self
    · obtain ⟨p, hp, hmem⟩ := h.father hj ((father_eq hkj).1.symm.trans hf)
      refine ⟨_, g.forth hp, ?_⟩
      rw [children_eq rfl]
      exact mem_append_of_mem hmem
  root := by
    intro y
    rw [g.roots]
    constructor
    · intro hy
      rcases mem_append_cases hy with hy | ⟨hf, rfl⟩
      · obtain ⟨j, hj, hjf⟩ := h.root.mp hy
        exact ⟨_, g.forth hj, (father_eq rfl).1.trans hjf⟩
      · exact ⟨i, g.new, hf⟩
    · rintro ⟨k, hk, hkf⟩
      rcases g.back hk with ⟨rfl, rfl⟩ | ⟨j, hj, hkj⟩
      · rw [if_pos hkf]
        exact List.mem_append_right _ List.mem_cons_self
      · exact mem_append_of_mem (h.root.mpr ⟨j, hj, (father_eq hkj).1.symm.trans hkf⟩)
  childrenSorted {y k} hk := by
    rcases g.back hk with ⟨-, rfl⟩ | ⟨j, hj, hkj⟩
    · rw [g.childless]
      exact List.Pairwise.nil
    · rw [children_eq hkj]
      split
      · exact g.sorted_append (fun _ => h.present_of_mem_children hj) (h.childrenSorted hj)
      · exact g.sorted (fun _ => h.present_of_mem_children hj) (h.childrenSorted hj)
  rootsSorted := by
    rw [g.roots]
    split
    · exact g.sorted_append (fun _ => h.present_of_mem_roots) h.rootsSorted
    · exact g.sorted (fun _ => h.present_of_mem_roots) h.rootsSorted
  fatherFirst {y k f k'} hk hf hk' := by
    rcases g.back hk with ⟨rfl, rfl⟩ | ⟨j, hj, hkj⟩
    · obtain ⟨p, hp⟩ := g.father hf
      rw [g.forth hp] at hk'
      rw [← Option.some.inj hk', (father_eq rfl).2]
      exact g.latest hp
    · have hjf := (father_eq hkj).1.symm.trans hf
      obtain ⟨p, hp, -⟩ := h.father hj hjf
      rw [g.forth hp] at hk'
      rw [← Option.some.inj hk', (father_eq rfl).2, (father_eq hkj).2]
      exact h.fatherFirst hj hjf hp

end Grown

/-- Lists an instance last under its father, or last among the roots. -/
def adopt (a : Arena β) (father : Option InstanceId) (id : InstanceId) : Arena β :=
  match father with
  | some f => a.modify f (·.withChild id)
  | none => a.addRoot id

theorem Stored.adopt (h : a.Stored) (father : Option InstanceId) (id : InstanceId) :
    (a.adopt father id).Stored := by
  cases father with
  | none => exact h.addRoot
  | some f => exact h.modify _

theorem lastOrder_adopt (father : Option InstanceId) (id : InstanceId) :
    (a.adopt father id).lastOrder = a.lastOrder := by
  cases father with
  | none => rfl
  | some f => exact lastOrder_modify _

theorem get?_adopt (father : Option InstanceId) (id y : InstanceId) :
    (a.adopt father id).get? y =
      if father = some y then (a.get? y).map (·.withChild id) else a.get? y := by
  cases father with
  | none => rw [adopt, get?_addRoot, if_neg (by simp)]
  | some f =>
    rw [adopt, get?_modify]
    by_cases hyf : y = f
    · rw [if_pos hyf, if_pos (by rw [hyf]), hyf]
    · rw [if_neg hyf, if_neg (by simpa using fun h => hyf h.symm)]

/-- **Inserting an instance and listing it** makes one instance more. -/
theorem grown_adopt (hs : a.Stored) (hins : a.insert i = .ok (id, b))
    (hchildren : i.children = []) (hlast : ∀ {y j}, a.get? y = some j → j.order < i.order)
    (hfather : ∀ {f}, i.father = some f → ∃ j, a.get? f = some j) :
    Grown a (b.adopt i.father id) id i := by
  have hget := get?_insert hs hins
  have hfresh := get?_eq_none_of_insert hs hins
  have hroots := roots_of_insert hs hins
  refine ⟨hfresh, ?_, hchildren, hlast, hfather, ?_, ?_⟩
  · have hself : i.father ≠ some id := by
      intro hf
      obtain ⟨p, hp⟩ := hfather hf
      rw [hfresh] at hp
      cases hp
    rw [get?_adopt, if_neg hself, hget, if_pos rfl]
  · intro y hy
    rw [get?_adopt, hget, if_neg hy]
  · cases hf : i.father with
    | none => rw [adopt, addRoot, hroots, if_pos rfl]
    | some f => rw [adopt, roots_modify, hroots, if_neg (by simp)]

/-- **Changing the new instance** in nothing that links it makes it another new instance. -/
theorem Grown.modify (g : Grown a b id i) (f : Instance β → Instance β)
    (hf : (f i).links = i.links) : Grown a (b.modify id f) id (f i) := by
  obtain ⟨hfather, hchildren, horder⟩ := Instance.links_eq_iff.mp hf
  refine ⟨g.fresh, ?_, hchildren.trans g.childless, ?_, ?_, ?_, ?_⟩
  · rw [get?_modify_self, g.new, Option.map_some]
  · intro y j hj
    rw [horder]
    exact g.latest hj
  · intro d hd
    exact g.father (hfather.symm.trans hd)
  · intro y hy
    rw [get?_modify_of_ne hy, g.kept hy, hfather]
  · rw [roots_modify, g.roots, hfather]

/-! ## A subtree less -/

/-- **A subtree less**: what lay under its top is gone, and the top is no longer listed. -/
structure Pruned (a b : Arena β) (id : InstanceId) (father : Option InstanceId) : Prop where
  gone : ∀ {y}, a.Under id y → b.get? y = none
  kept : ∀ {y}, ¬a.Under id y →
    b.get? y = if father = some y then (a.get? y).map (·.withoutChild id) else a.get? y
  roots : ∀ {y}, y ∈ b.roots ↔ y ∈ a.roots ∧ ¬a.Under id y
  sublist : b.roots.Sublist a.roots

namespace Pruned

variable {father : Option InstanceId}

/-- An instance of afterwards was there before, not under the top, with at most one child more. -/
theorem back (p : Pruned a b id father) (hy : b.get? y = some k) :
    ¬a.Under id y ∧
      ∃ j, a.get? y = some j ∧ k = if father = some y then j.withoutChild id else j := by
  have hunder : ¬a.Under id y := by
    intro hu
    rw [p.gone hu] at hy
    cases hy
  refine ⟨hunder, ?_⟩
  rw [p.kept hunder] at hy
  split at hy
  · rename_i hf
    obtain ⟨j, hj, rfl⟩ := Option.map_eq_some_iff.mp hy
    exact ⟨j, hj, by rw [if_pos hf]⟩
  · rename_i hf
    exact ⟨k, hy, by rw [if_neg hf]⟩

theorem forth (p : Pruned a b id father) (hunder : ¬a.Under id y) (hy : a.get? y = some j) :
    b.get? y = some (if father = some y then j.withoutChild id else j) := by
  rw [p.kept hunder, hy]
  split <;> rfl

theorem father_eq (h : k = if father = some y then j.withoutChild id else j) :
    k.father = j.father ∧ k.order = j.order := by
  rw [h]
  split <;> exact ⟨rfl, rfl⟩

theorem children_sublist (h : k = if father = some y then j.withoutChild id else j) :
    k.children.Sublist j.children := by
  rw [h]
  split
  · exact List.filter_sublist
  · exact List.Sublist.refl _

theorem mem_children (h : k = if father = some y then j.withoutChild id else j)
    (hc : c ∈ j.children) (hne : c ≠ id) : c ∈ k.children := by
  rw [h]
  split
  · exact List.mem_filter.mpr ⟨hc, by simpa using hne⟩
  · exact hc

theorem orderOf_eq (p : Pruned a b id father) (hy : b.get? y = some k) :
    b.orderOf y = a.orderOf y := by
  obtain ⟨-, j, hj, hkj⟩ := p.back hy
  rw [Arena.orderOf_eq hy, Arena.orderOf_eq hj, (father_eq hkj).2]

/-- A list in order of creation stays one as long as what it lists is there. -/
theorem sorted (p : Pruned a b id father) {ys zs : List InstanceId} (hsub : zs.Sublist ys)
    (hzs : ∀ z ∈ zs, ∃ k, b.get? z = some k)
    (hsorted : ys.Pairwise fun c d => a.orderOf c < a.orderOf d) :
    zs.Pairwise fun c d => b.orderOf c < b.orderOf d := by
  refine (hsorted.sublist hsub).imp_of_mem ?_
  intro c d hc hd hlt
  obtain ⟨q, hq⟩ := hzs c hc
  obtain ⟨r, hr⟩ := hzs d hd
  rw [p.orderOf_eq hq, p.orderOf_eq hr]
  exact hlt

/-- A child of what is kept is kept. -/
theorem child (p : Pruned a b id father) (h : a.Forest) (hi : a.get? id = some i)
    (hfather : father = i.father) (hk : b.get? y = some k) (hc : c ∈ k.children) :
    ∃ q, b.get? c = some q ∧ q.father = some y := by
  obtain ⟨hy, j, hj, hkj⟩ := p.back hk
  obtain ⟨q, hq, hqf⟩ := h.child hj ((children_sublist hkj).subset hc)
  have hne : c ≠ id := by
    rintro rfl
    rw [hi] at hq
    cases hq
    rw [hkj, if_pos (hfather.trans hqf)] at hc
    simp [Instance.withoutChild] at hc
  -- Were the child under the top, then so would be its father, which is kept.
  have hunder : ¬a.Under id c := fun hu => hy (hu.father h hne hq hqf)
  exact ⟨_, p.forth hunder hq, (father_eq rfl).1.trans hqf⟩

/-- **Taking a subtree away** keeps the forest. -/
theorem forest (p : Pruned a b id father) (h : a.Forest) (hi : a.get? id = some i)
    (hfather : father = i.father) : b.Forest where
  child hk hc := p.child h hi hfather hk hc
  father {y k f} hk hf := by
    obtain ⟨hy, j, hj, hkj⟩ := p.back hk
    have hjf := (father_eq hkj).1.symm.trans hf
    obtain ⟨q, hq, hmem⟩ := h.father hj hjf
    -- The top alone is struck off a list, and it is not among what is kept.
    have hunder : ¬a.Under id f := fun hu => hy (hu.of_father h hj hjf)
    have hne : y ≠ id := by
      rintro rfl
      exact hy .self
    exact ⟨_, p.forth hunder hq, mem_children rfl hmem hne⟩
  root := by
    intro y
    rw [p.roots, h.root]
    constructor
    · rintro ⟨⟨j, hj, hjf⟩, hunder⟩
      exact ⟨_, p.forth hunder hj, (father_eq rfl).1.trans hjf⟩
    · rintro ⟨k, hk, hkf⟩
      obtain ⟨hunder, j, hj, hkj⟩ := p.back hk
      exact ⟨⟨j, hj, (father_eq hkj).1.symm.trans hkf⟩, hunder⟩
  childrenSorted {y k} hk := by
    obtain ⟨-, j, hj, hkj⟩ := p.back hk
    refine p.sorted (children_sublist hkj) ?_ (h.childrenSorted hj)
    intro c hc
    obtain ⟨q, hq, -⟩ := p.child h hi hfather hk hc
    exact ⟨q, hq⟩
  rootsSorted := by
    refine p.sorted p.sublist ?_ h.rootsSorted
    intro r hr
    obtain ⟨hmem, hunder⟩ := p.roots.mp hr
    obtain ⟨j, hj⟩ := h.present_of_mem_roots hmem
    exact ⟨_, p.forth hunder hj⟩
  fatherFirst {y k f k'} hk hf hk' := by
    obtain ⟨-, j, hj, hkj⟩ := p.back hk
    obtain ⟨-, q, hq, hkq⟩ := p.back hk'
    rw [(father_eq hkj).2, (father_eq hkq).2]
    exact h.fatherFirst hj ((father_eq hkj).1.symm.trans hf) hq

end Pruned

/-- The arena without a subtree, whose top leaves its father's children. -/
def prune (a : Arena β) (id : InstanceId) (father : Option InstanceId) : Arena β :=
  match father with
  | some f => (a.removeAll (a.postorder id)).modify f (·.withoutChild id)
  | none => a.removeAll (a.postorder id)

theorem Stored.prune (h : a.Stored) (id : InstanceId) (father : Option InstanceId) :
    (a.prune id father).Stored := by
  cases father with
  | none => exact h.removeAll _
  | some f => exact (h.removeAll _).modify _

theorem lastOrder_prune (id : InstanceId) (father : Option InstanceId) :
    (a.prune id father).lastOrder = a.lastOrder := by
  cases father with
  | none => exact lastOrder_removeAll _
  | some f => rw [prune, lastOrder_modify, lastOrder_removeAll]

theorem get?_prune (id : InstanceId) (father : Option InstanceId) (y : InstanceId) :
    (a.prune id father).get? y = if y ∈ a.postorder id then none
      else if father = some y then (a.get? y).map (·.withoutChild id) else a.get? y := by
  have hget := get?_removeAll (a := a) (a.postorder id)
  cases father with
  | none => rw [prune, hget, if_neg (by simp : ¬(none : Option InstanceId) = some y)]
  | some f =>
    rw [prune, get?_modify, hget, hget]
    by_cases hyf : y = f
    · subst hyf
      rw [if_pos rfl, if_pos rfl]
      split <;> rfl
    · rw [if_neg hyf, if_neg (by simpa using fun h => hyf h.symm : ¬some f = some y)]

/-- Where an instance without children goes, only its father differs. -/
theorem get?_prune_of_childless {y : InstanceId} (h : a.childrenOf id = []) (hy : y ≠ id)
    (father : Option InstanceId) : (a.prune id father).get? y =
      if father = some y then (a.get? y).map (·.withoutChild id) else a.get? y := by
  rw [get?_prune, postorder_of_childless h, if_neg fun hmem => hy (List.mem_singleton.mp hmem)]

theorem roots_prune (h : a.Forest) (id : InstanceId) (father : Option InstanceId) :
    (a.prune id father).roots = a.roots.filter (· ∉ a.postorder id) := by
  have hall := roots_removeAll (a.postorder id) fun r hr => h.present_of_mem_roots hr
  cases father with
  | none => exact hall
  | some f => rw [prune, roots_modify, hall]

/-- **Removing a subtree and striking its top off a list** makes a subtree less. -/
theorem pruned_prune (h : a.Forest) (id : InstanceId) (father : Option InstanceId) :
    Pruned a (a.prune id father) id father := by
  have hroots := a.roots_prune h id father
  exact {
    gone := by
      intro y hy
      rw [get?_prune, if_pos (h.mem_postorder.mpr hy)]
    kept := by
      intro y hy
      rw [get?_prune, if_neg fun hmem => hy (h.mem_postorder.mp hmem)]
    roots := by
      intro y
      rw [hroots, List.mem_filter, decide_eq_true_eq, h.mem_postorder]
    sublist := by
      rw [hroots]
      exact List.filter_sublist }

end Arena

end ProductModel
