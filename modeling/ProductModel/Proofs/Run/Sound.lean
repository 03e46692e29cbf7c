import ProductModel.Proofs.Run.Reachable

/-!
# What holds of every state of a run

`Reachable.sound` is the invariant of the transition system:

* `Model.Coherent`: the arena is a forest in order of creation, and product data are kept for
  present instances only;
* `Pending.Held`: the subject of every chain under way is there and stands as it stood when the
  chain began, and an instance that is being initialized is newer than everything that was there
  before;
* an instance is as busy as there are chains on it under way.

Every single change is `Careful`: it keeps the model coherent, makes no instance older and leaves
the standing of busy instances alone.  That much carries what is held across a change, whatever else
the change does.

`Aged` compares the two ends of a longer stretch of a run: what is there at the end was there at the
beginning, with the same father, or is newer than everything that was there.
-/

namespace ProductModel

variable {β : Type} {m m' m'' : Model β} {id x y : InstanceId} {i j : Instance β}

/-- **A model in good order.** -/
structure Model.Coherent (m : Model β) : Prop where
  stored : m.arena.Stored
  forest : m.arena.Forest
  ordered : ∀ {x i}, m.arena.get? x = some i → i.order ≤ m.arena.lastOrder
  products : ∀ y ∈ m.products.keys, ∃ i, m.arena.get? y = some i

/-- **What a change respects**: it ends in a coherent model, makes no instance older, gives no
instance another father, and leaves the standing of busy instances alone. -/
structure Careful (m m' : Model β) : Prop where
  coherent : m'.Coherent
  lastOrder : m.arena.lastOrder ≤ m'.arena.lastOrder
  origin : ∀ {y j}, m'.arena.get? y = some j →
    (∃ i, m.arena.get? y = some i ∧ i.order = j.order ∧ i.father = j.father) ∨
      (m.arena.get? y = none ∧ m.arena.lastOrder < j.order)
  kept : ∀ {y i}, m.arena.get? y = some i → m.busyOf y ≠ 0 →
    ∃ j, m'.arena.get? y = some j ∧ j.standing = i.standing

/-- **What a pending chain or birth relies on.** -/
def Pending.Held (m : Model β) : Pending → Prop
  | chain x s moment =>
    moment ≤ m.arena.lastOrder ∧ ∃ i, m.arena.get? x = some i ∧ i.standing = s ∧
      i.order ≤ moment ∧ ∀ c ∈ i.children, m.arena.orderOf c ≤ moment
  | birth id moment =>
    moment ≤ m.arena.lastOrder ∧ ∀ i, m.arena.get? id = some i → moment < i.order

/-- **The invariant of a run.** -/
structure Sound (pending : List Pending) (m : Model β) : Prop where
  coherent : m.Coherent
  held : ∀ p ∈ pending, p.Held m
  /-- what began later, began at a later moment -/
  stacked : pending.Pairwise fun p q => q.moment ≤ p.moment
  busy : ∀ x, m.busyOf x = chainsOn pending x

theorem Instance.standing_eq (h : i.standing = j.standing) :
    i.father = j.father ∧ i.localName = j.localName ∧ i.element = j.element ∧
      i.children = j.children ∧ i.order = j.order ∧ i.properties.layout = j.properties.layout := by
  simpa [standing] using h

theorem Pending.Held.moment_le {p : Pending} (h : p.Held m) : p.moment ≤ m.arena.lastOrder := by
  cases p with
  | chain x s moment => exact h.1
  | birth id moment => exact h.1

/-! ## Counting chains -/

theorem Model.busyOf_eq (h : m.arena.get? x = some i) : m.busyOf x = i.busy := by
  rw [busyOf, h]
  rfl

theorem Model.present_of_busy (h : m.busyOf x ≠ 0) : ∃ i, m.arena.get? x = some i := by
  unfold busyOf at h
  cases hi : m.arena.get? x with
  | none =>
    rw [hi] at h
    exact absurd rfl h
  | some i => exact ⟨i, rfl⟩

theorem chainsOn_ne_zero {pending : List Pending} :
    chainsOn pending x ≠ 0 ↔ ∃ s moment, Pending.chain x s moment ∈ pending := by
  rw [← Nat.pos_iff_ne_zero, chainsOn, List.countP_pos_iff]
  constructor
  · rintro ⟨p, hp, hon⟩
    cases p with
    | chain subject s moment =>
      have hx : subject = x := by simpa [Pending.isChainOn] using hon
      exact ⟨s, moment, hx ▸ hp⟩
    | birth id moment => cases hon
  · rintro ⟨s, moment, hp⟩
    exact ⟨_, hp, by simp [Pending.isChainOn]⟩

/-! ## Changes that keep all links -/

/-- **A change that keeps all links** is careful, as long as it keeps what busy instances stand
for. -/
theorem Careful.of_links (h : m.Coherent) (stored : m'.arena.Stored)
    (roots : m'.arena.roots = m.arena.roots) (lastOrder : m.arena.lastOrder ≤ m'.arena.lastOrder)
    (links : ∀ y, (m'.arena.get? y).map Instance.links = (m.arena.get? y).map Instance.links)
    (kept : ∀ y, m.busyOf y ≠ 0 →
      (m'.arena.get? y).map Instance.standing = (m.arena.get? y).map Instance.standing)
    (products : ∀ y ∈ m'.products.keys, y ∈ m.products.keys ∨ ∃ i, m.arena.get? y = some i) :
    Careful m m' := by
  have hback := fun {y j} (hj : m'.arena.get? y = some j) =>
    Arena.exists_get?_of_links (links y).symm hj
  exact {
    coherent := {
      stored
      forest := h.forest.congr roots links
      ordered := by
        intro y j hj
        obtain ⟨i, hi, -, -, horder⟩ := hback hj
        have := h.ordered hi
        omega
      products := by
        intro y hy
        have hpresent : ∃ i, m.arena.get? y = some i := (products y hy).elim (h.products y) id
        obtain ⟨i, hi⟩ := hpresent
        obtain ⟨j, hj, -⟩ := Arena.exists_get?_of_links (links y) hi
        exact ⟨j, hj⟩ }
    lastOrder
    origin := by
      intro y j hj
      obtain ⟨i, hi, hfather, -, horder⟩ := hback hj
      exact Or.inl ⟨i, hi, horder, hfather⟩
    kept := by
      intro y i hi hbusy
      exact Arena.exists_get?_of_map_eq (kept y hbusy) hi }

/-- Changing one instance in no part of its standing. -/
theorem careful_modify (h : m.Coherent) (x : InstanceId) {f : Instance β → Instance β}
    (hf : ∀ i, (f i).standing = i.standing) : Careful m (m.modify x f) := by
  have hsame : ∀ {γ : Type} (part : Instance β → γ), (∀ i, part (f i) = part i) → ∀ y,
      ((m.modify x f).arena.get? y).map part = (m.arena.get? y).map part :=
    fun part hpart y => Arena.map_get?_modify part (fun i _ => hpart i) y
  have hlinks : ∀ i, (f i).links = i.links := by
    intro i
    obtain ⟨hfather, -, -, hchildren, horder, -⟩ := Instance.standing_eq (hf i)
    exact Instance.links_eq_iff.mpr ⟨hfather, hchildren, horder⟩
  exact .of_links h (h.stored.modify f) (Arena.roots_modify f)
    (Nat.le_of_eq (Arena.lastOrder_modify f).symm) (hsame _ hlinks) (fun y _ => hsame _ hf y)
    fun y hy => Or.inl hy

theorem Retouched.careful (h : m.Coherent) (r : Retouched m m') : Careful m m' := by
  refine .of_links h (r.stored h.stored) r.roots r.lastOrder ?_ r.kept r.products
  intro y
  have hsame := congrArg (Option.map Prod.fst) (r.naming y)
  rw [Option.map_map, Option.map_map] at hsame
  exact hsame

theorem careful_remembering (h : m.Coherent) (id : InstanceId) :
    Careful m (m.remembering id) := by
  have only := Arena.onlyMemos_describe (a := m.arena) id
  exact .of_links h (only.stored h.stored) only.roots (Nat.le_of_eq only.lastOrder.symm)
    (only.map_eq _ fun _ => rfl) (fun y _ => only.map_eq _ (fun _ => rfl) y) fun y hy => Or.inl hy

/-- What is found after a change of name. -/
theorem Model.get?_renamed (m : Model β) (id : InstanceId) (name : String) (y : InstanceId) :
    (m.renamed id name).arena.get? y =
      let renamed := if y = id then (m.arena.get? y).map fun i => { i with localName := name }
        else m.arena.get? y
      if y ∈ m.arena.preorder id then renamed.map Instance.forgetName else renamed := by
  unfold renamed
  simp only
  rw [Arena.get?_modifyAll Instance.forgetName_forgetName, Arena.get?_modify]
  by_cases hy : y = id
  · rw [hy]
  · rw [if_neg hy, if_neg hy]

/-- Every part that looks neither at the local name nor at the remembered one is kept. -/
theorem Model.map_get?_renamed {γ : Type} (m : Model β) (id : InstanceId) (name : String)
    (part : Instance β → γ) (hmemo : ∀ i : Instance β, part i.forgetName = part i)
    (hname : ∀ i : Instance β, y = id → part { i with localName := name } = part i) :
    ((m.renamed id name).arena.get? y).map part = (m.arena.get? y).map part := by
  rw [m.get?_renamed]
  cases hi : m.arena.get? y with
  | none => simp
  | some i =>
    by_cases hy : y = id
    · have hrenamed := hname i hy
      by_cases hmem : y ∈ m.arena.preorder id
      · simp only [if_pos hy, if_pos hmem, Option.map_some, hmemo, hrenamed]
      · simp only [if_pos hy, if_neg hmem, Option.map_some, hrenamed]
    · by_cases hmem : y ∈ m.arena.preorder id
      · simp only [if_neg hy, if_pos hmem, Option.map_some, hmemo]
      · simp only [if_neg hy, if_neg hmem, Option.map_some]

theorem careful_renamed (h : m.Coherent) (name : String) (hidle : m.busyOf id = 0) :
    Careful m (m.renamed id name) := by
  refine .of_links h ((h.stored.modify _).modifyAll _ _) ?_ ?_ ?_ ?_ fun y hy => Or.inl hy
  · unfold Model.renamed
    simp
  · unfold Model.renamed
    simp
  · intro y
    exact m.map_get?_renamed id name _ (fun _ => rfl) fun _ _ => rfl
  · intro y hbusy
    refine m.map_get?_renamed id name _ (fun _ => rfl) ?_
    rintro i rfl
    exact absurd hidle hbusy

/-! ## New instances and removed subtrees -/

theorem Placed.careful (h : m.Coherent) (p : Placed m id i m') : Careful m m' := by
  have g := p.grown
  have hlt : m.arena.lastOrder < i.order := by rw [p.order]; exact Nat.lt_succ_self _
  have hlast := p.lastOrder
  exact {
    coherent := {
      stored := p.stored
      forest := g.forest h.forest
      ordered := by
        intro y k hk
        rcases g.back hk with ⟨-, rfl⟩ | ⟨j, hj, hkj⟩
        · omega
        · have hle := h.ordered hj
          rw [(Arena.Grown.father_eq hkj).2]
          omega
      products := by
        intro y hy
        rw [p.products] at hy
        obtain ⟨j, hj⟩ := h.products y hy
        exact ⟨_, g.forth hj⟩ }
    lastOrder := by omega
    origin := by
      intro y k hk
      rcases g.back hk with ⟨rfl, rfl⟩ | ⟨j, hj, hkj⟩
      · exact Or.inr ⟨g.fresh, hlt⟩
      · obtain ⟨hfather, horder⟩ := Arena.Grown.father_eq hkj
        exact Or.inl ⟨j, hj, horder.symm, hfather.symm⟩
    kept := by
      -- The only instance of before that changes is the father, who is idle.
      intro y j hj hbusy
      have hne : i.father ≠ some y := fun hf => hbusy (p.fatherIdle y hf)
      exact ⟨j, by rw [g.forth hj, if_neg hne], rfl⟩ }

/-- **Removing a subtree prunes the arena**; the last stage of what goes is not to be seen. -/
theorem Model.arena_removeSubtree (m : Model β) (id : InstanceId) (father : Option InstanceId) :
    (m.removeSubtree id father).2.arena = m.arena.prune id father := by
  unfold removeSubtree
  simp only
  rw [Arena.removeAll_modifyAll fun _ h => h]
  cases father <;> rfl

theorem Model.pruned_removeSubtree (h : m.Coherent) (id : InstanceId)
    (father : Option InstanceId) :
    Arena.Pruned m.arena (m.removeSubtree id father).2.arena id father := by
  rw [arena_removeSubtree]
  exact Arena.pruned_prune h.forest id father

/-- **Removing a subtree of idle instances from an idle father** is careful. -/
theorem careful_removeSubtree (h : m.Coherent) (hi : m.arena.get? id = some i)
    (hidle : ∀ y, m.arena.Under id y → m.busyOf y = 0)
    (hfather : ∀ f, i.father = some f → m.busyOf f = 0) :
    Careful m (m.removeSubtree id i.father).2 := by
  have p := m.pruned_removeSubtree h id i.father
  have hlast : (m.removeSubtree id i.father).2.arena.lastOrder = m.arena.lastOrder := by
    rw [m.arena_removeSubtree, Arena.lastOrder_prune]
  have hstored : (m.removeSubtree id i.father).2.arena.Stored := by
    rw [m.arena_removeSubtree]
    exact h.stored.prune id i.father
  exact {
    coherent := {
      stored := hstored
      forest := p.forest h.forest hi rfl
      ordered := by
        intro y k hk
        obtain ⟨-, j, hj, hkj⟩ := p.back hk
        rw [hlast, (Arena.Pruned.father_eq hkj).2]
        exact h.ordered hj
      products := by
        intro y hy
        have hkeys : y ∉ m.arena.postorder id ∧ y ∈ m.products.keys :=
          (Association.mem_keys_foldl_erase _ _).mp hy
        obtain ⟨j, hj⟩ := h.products y hkeys.2
        exact ⟨_, p.forth (fun hu => hkeys.1 (h.forest.mem_postorder.mpr hu)) hj⟩ }
    lastOrder := Nat.le_of_eq hlast.symm
    origin := by
      intro y k hk
      obtain ⟨-, j, hj, hkj⟩ := p.back hk
      obtain ⟨hf, horder⟩ := Arena.Pruned.father_eq hkj
      exact Or.inl ⟨j, hj, horder.symm, hf.symm⟩
    kept := by
      -- What is busy is neither in the subtree nor the father of its top.
      intro y j hj hbusy
      have hunder : ¬m.arena.Under id y := fun hu => hbusy (hidle y hu)
      have hne : i.father ≠ some y := fun hf => hbusy (hfather y hf)
      exact ⟨j, by rw [p.forth hunder hj, if_neg hne], rfl⟩ }

/-! ## The invariant of a run -/

/-- What is held is held after a careful change. -/
theorem Careful.held (c : Careful m m') (h : m.Coherent) {p : Pending} (hp : p.Held m)
    (hbusy : ∀ x s moment, p = .chain x s moment → m.busyOf x ≠ 0) : p.Held m' := by
  have hlast := c.lastOrder
  cases p with
  | chain x s moment =>
    obtain ⟨hmoment, i, hi, rfl, horder, hchildren⟩ := hp
    obtain ⟨j, hj, hstanding⟩ := c.kept hi (hbusy x _ _ rfl)
    have hsame := Instance.standing_eq hstanding
    refine ⟨by omega, j, hj, hstanding, by rw [hsame.2.2.2.2.1]; exact horder, ?_⟩
    intro d hd
    rw [hsame.2.2.2.1] at hd
    obtain ⟨k, hk, -⟩ := h.forest.child hi hd
    obtain ⟨k', hk', -⟩ := c.coherent.forest.child hj (by rw [hsame.2.2.2.1]; exact hd)
    have hle := hchildren d hd
    -- A child of a busy instance was there before, so it is no newer than it was.
    rcases c.origin hk' with ⟨k₀, hk₀, heq, -⟩ | ⟨hnone, -⟩
    · rw [Arena.orderOf_eq hk', ← heq, ← Arena.orderOf_eq hk₀]
      exact hle
    · rw [hk] at hnone
      cases hnone
  | birth id moment =>
    obtain ⟨hmoment, hnewer⟩ := hp
    refine ⟨by omega, ?_⟩
    intro j hj
    rcases c.origin hj with ⟨i, hi, heq, -⟩ | ⟨-, hlt⟩
    · rw [← heq]
      exact hnewer i hi
    · omega

namespace Sound

variable {pending : List Pending} {s : Standing} {moment : Nat}

/-- A busy instance is the subject of a chain under way. -/
theorem exists_chain (h : Sound pending m) (hx : m.busyOf x ≠ 0) :
    ∃ s moment, Pending.chain x s moment ∈ pending := by
  rw [h.busy] at hx
  exact chainsOn_ne_zero.mp hx

theorem busy_of_chain (h : Sound pending m) (hx : Pending.chain x s moment ∈ pending) :
    m.busyOf x ≠ 0 := by
  rw [h.busy]
  exact chainsOn_ne_zero.mpr ⟨s, moment, hx⟩

/-- The invariant after a careful change, with what is under way then. -/
theorem of_careful (h : Sound pending m) (c : Careful m m') {pending' : List Pending}
    (hsub : pending'.Sublist pending) (hbusy : ∀ x, m'.busyOf x = chainsOn pending' x) :
    Sound pending' m' := by
  refine ⟨c.coherent, ?_, h.stacked.sublist hsub, hbusy⟩
  intro p hp
  have hmem := hsub.subset hp
  refine c.held h.coherent (h.held p hmem) ?_
  rintro x s moment rfl
  exact h.busy_of_chain hmem

/-- The invariant when something more begins. -/
theorem begin (h : Sound pending m) {p : Pending} (hmoment : p.moment = m.arena.lastOrder)
    (c : Careful m m') (hp : p.Held m') (hbusy : ∀ x, m'.busyOf x = chainsOn (p :: pending) x) :
    Sound (p :: pending) m' := by
  refine ⟨c.coherent, ?_, ?_, hbusy⟩
  · intro q hq
    rcases List.mem_cons.mp hq with rfl | hq
    · exact hp
    · refine c.held h.coherent (h.held q hq) ?_
      rintro x s moment rfl
      exact h.busy_of_chain hq
  · rw [List.pairwise_cons]
    refine ⟨?_, h.stacked⟩
    intro q hq
    rw [hmoment]
    exact (h.held q hq).moment_le

/-- What the last begun birth is newer than. -/
theorem newer_than_chains (h : Sound (.birth id moment :: pending) m)
    (hi : m.arena.get? id = some i) (hx : Pending.chain x s n ∈ pending)
    (hj : m.arena.get? x = some j) : j.order < i.order ∧ id ∉ j.children := by
  have hborn := (h.held _ List.mem_cons_self).2 i hi
  have hstack : n ≤ moment := (List.pairwise_cons.mp h.stacked).1 _ hx
  obtain ⟨-, j', hj', -, horder, hchildren⟩ := h.held _ (List.mem_cons_of_mem _ hx)
  rw [hj] at hj'
  cases hj'
  refine ⟨by omega, ?_⟩
  intro hmem
  have hle := hchildren id hmem
  rw [Arena.orderOf_eq hi] at hle
  omega

/-- **An instance that is being initialized can be discarded**: nothing under it is busy, because it
is newer than every subject of a chain, and neither is its father, because it is newer than every
child of a subject. -/
theorem discardable (h : Sound (.birth id moment :: pending) m)
    (hi : m.arena.get? id = some i) :
    (∀ y, m.arena.Under id y → m.busyOf y = 0) ∧
      (∀ f, i.father = some f → m.busyOf f = 0) := by
  have hchain : ∀ {y}, m.busyOf y ≠ 0 → ∃ s n, Pending.chain y s n ∈ pending := by
    intro y hy
    obtain ⟨s, n, hmem⟩ := h.exists_chain hy
    rcases List.mem_cons.mp hmem with hhead | hmem
    · cases hhead
    · exact ⟨s, n, hmem⟩
  constructor
  · intro y hunder
    apply Decidable.byContradiction
    intro hbusy
    obtain ⟨s, n, hmem⟩ := hchain hbusy
    obtain ⟨j, hj⟩ := Model.present_of_busy hbusy
    -- The subject would be older than the instance, and what is under an instance is newer.
    have hlt := (h.newer_than_chains hi hmem hj).1
    have hle := hunder.order_le h.coherent.forest
    rw [Arena.orderOf_eq hi, Arena.orderOf_eq hj] at hle
    omega
  · intro f hf
    apply Decidable.byContradiction
    intro hbusy
    obtain ⟨s, n, hmem⟩ := hchain hbusy
    obtain ⟨j, hj, hchild⟩ := h.coherent.forest.father hi hf
    exact (h.newer_than_chains hi hmem hj).2 hchild

end Sound

/-! ### One change after the other -/

theorem Model.busyOf_modify (m : Model β) (x y : InstanceId) (f : Instance β → Instance β)
    {g : Nat → Nat} (hf : ∀ i, (f i).busy = g i.busy) (hx : ∃ i, m.arena.get? x = some i) :
    (m.modify x f).busyOf y = if y = x then g (m.busyOf y) else m.busyOf y := by
  show (((m.arena.modify x f).get? y).map _).getD 0 = _
  rw [Arena.get?_modify]
  split
  · rename_i hy
    obtain ⟨i, hi⟩ := hx
    rw [hy, hi, Model.busyOf_eq hi]
    exact hf i
  · rfl

theorem Model.modify_of_absent (h : m.arena.get? x = none) (f : Instance β → Instance β) :
    m.modify x f = m := by
  unfold modify Arena.modify
  rw [h]

/-- A change of one instance that does not touch its chains leaves all chains alone. -/
theorem Model.busyOf_modify_of_keeps (m : Model β) (x y : InstanceId)
    {f : Instance β → Instance β} (hf : ∀ i, (f i).busy = i.busy) :
    (m.modify x f).busyOf y = m.busyOf y := by
  cases hx : m.arena.get? x with
  | none => rw [Model.modify_of_absent hx]
  | some i =>
    rw [m.busyOf_modify x y f (g := id) hf ⟨i, hx⟩]
    simp

theorem Careful.busyOf_eq_of_removed (h : m.Coherent)
    (hidle : ∀ y, m.arena.Under id y → m.busyOf y = 0) (father : Option InstanceId)
    (y : InstanceId) : (m.removeSubtree id father).2.busyOf y = m.busyOf y := by
  have p := m.pruned_removeSubtree h id father
  by_cases hunder : m.arena.Under id y
  · rw [hidle y hunder, Model.busyOf, p.gone hunder]
    rfl
  · rw [Model.busyOf, p.kept hunder]
    split
    · rw [Option.map_map]
      rfl
    · rfl

/-- **Every edit is careful** and leaves the chains alone. -/
theorem Edit.careful (h : m.Coherent) (e : Edit m m') :
    Careful m m' ∧ ∀ x, m'.busyOf x = m.busyOf x := by
  cases e with
  | retouch r => exact ⟨r.careful h, r.busy⟩
  | remember id =>
    refine ⟨careful_remembering h id, ?_⟩
    intro x
    have hsame := (Arena.onlyMemos_describe (a := m.arena) id).map_eq (·.busy) (fun _ => rfl) x
    exact congrArg (·.getD 0) hsame
  | @rename id i name hi hidle =>
    refine ⟨careful_renamed h _ hidle, ?_⟩
    intro x
    have hsame := m.map_get?_renamed (y := x) id name (·.busy) (fun _ => rfl) fun _ _ => rfl
    exact congrArg (·.getD 0) hsame
  | drop hi hidle hfather =>
    exact ⟨careful_removeSubtree h hi hidle hfather, Careful.busyOf_eq_of_removed h hidle _⟩

theorem Placed.busyOf_eq (p : Placed m id i m') (y : InstanceId) : m'.busyOf y = m.busyOf y := by
  have g := p.grown
  by_cases hy : y = id
  · rw [hy, Model.busyOf_eq g.new, p.idle, Model.busyOf, g.fresh]
    rfl
  · rw [Model.busyOf, g.kept hy]
    split
    · rw [Option.map_map]
      rfl
    · rfl

theorem chainsOn_cons (p : Pending) (pending : List Pending) (x : InstanceId) :
    chainsOn (p :: pending) x = chainsOn pending x + if p.isChainOn x then 1 else 0 := by
  unfold chainsOn
  rw [List.countP_cons]

theorem Sound.enter {pending : List Pending} (h : Sound pending m)
    (hi : m.arena.get? x = some i) :
    Sound (.chain x i.standing m.arena.lastOrder :: pending) (m.entering x) := by
  have hcareful := careful_modify h.coherent x
    (f := fun i => { i with busy := i.busy + 1 }) fun _ => rfl
  have hlast : (m.entering x).arena.lastOrder = m.arena.lastOrder := Arena.lastOrder_modify _
  have hle := h.coherent.ordered hi
  refine h.begin rfl hcareful ⟨Nat.le_of_eq hlast.symm, ?_⟩ ?_
  · refine ⟨{ i with busy := i.busy + 1 }, ?_, rfl, hle, ?_⟩
    · show (m.arena.modify x _).get? x = _
      rw [Arena.get?_modify_self, hi]
      rfl
    · intro c hc
      obtain ⟨j, hj, -⟩ := h.coherent.forest.child hi hc
      have hle := h.coherent.ordered hj
      rw [← Arena.orderOf_eq hj] at hle
      -- Entering changes no number, so its children are as old as they were.
      have horder : (m.entering x).arena.orderOf c = m.arena.orderOf c := by
        refine Arena.orderOf_of_links ?_
        show ((m.arena.modify x _).get? c).map _ = _
        rw [Arena.get?_modify]
        split
        · rename_i hcx
          rw [hcx, Option.map_map]
          rfl
        · rfl
      rw [horder]
      exact hle
  · intro y
    rw [chainsOn_cons, ← h.busy, Model.entering,
      m.busyOf_modify x y _ (g := (· + 1)) (fun _ => rfl) ⟨i, hi⟩]
    by_cases hy : y = x
    · simp [Pending.isChainOn, hy]
    · simp [Pending.isChainOn, hy, Ne.symm hy]

theorem Sound.leave {pending : List Pending} {s : Standing} {moment : Nat}
    (h : Sound (.chain x s moment :: pending) m) : Sound pending (m.leaving x) := by
  have hcareful := careful_modify h.coherent x
    (f := fun i => { i with busy := i.busy - 1 }) fun _ => rfl
  refine h.of_careful hcareful (List.sublist_cons_self _ _) ?_
  intro y
  have hbusy := h.busy y
  rw [chainsOn_cons] at hbusy
  obtain ⟨-, i, hi, -⟩ := h.held _ List.mem_cons_self
  show (m.modify x _).busyOf y = _
  rw [m.busyOf_modify x y _ (g := (· - 1)) (fun _ => rfl) ⟨i, hi⟩, hbusy]
  by_cases hy : y = x
  · simp [Pending.isChainOn, hy]
  · simp [Pending.isChainOn, hy, Ne.symm hy]

theorem Sound.place {pending : List Pending} (h : Sound pending m) (p : Placed m id i m') :
    Sound (.birth id m.arena.lastOrder :: pending) m' := by
  have horder : m.arena.lastOrder < i.order := by rw [p.order]; exact Nat.lt_succ_self _
  have hlast := p.lastOrder
  refine h.begin rfl (p.careful h.coherent) ⟨by omega, ?_⟩ ?_
  · intro k hk
    rw [p.grown.new] at hk
    cases hk
    exact horder
  · intro y
    rw [p.busyOf_eq, h.busy, chainsOn_cons]
    rfl

theorem Sound.settle {pending : List Pending} {moment : Nat}
    (h : Sound (.birth id moment :: pending) m) : Sound pending (m.settling id) := by
  have hcareful := careful_modify h.coherent id
    (f := fun i => { i with state := .live }) fun _ => rfl
  refine h.of_careful hcareful (List.sublist_cons_self _ _) ?_
  intro y
  have hbusy := m.busyOf_modify_of_keeps id y
    (f := fun i => { i with state := .live }) fun _ => rfl
  rw [hbusy, h.busy, chainsOn_cons]
  rfl

theorem Sound.discard {pending : List Pending} {moment : Nat}
    (h : Sound (.birth id moment :: pending) m) : Sound pending (m.discarding id) := by
  have hsub := List.sublist_cons_self (Pending.birth id moment) pending
  have hchains : ∀ y, m.busyOf y = chainsOn pending y := by
    intro y
    rw [h.busy, chainsOn_cons]
    rfl
  unfold Model.discarding
  cases hi : m.arena.get? id with
  | none =>
    exact ⟨h.coherent, fun p hp => h.held p (hsub.subset hp), h.stacked.sublist hsub, hchains⟩
  | some i =>
    obtain ⟨hidle, hfather⟩ := h.discardable hi
    refine h.of_careful (careful_removeSubtree h.coherent hi hidle hfather) hsub ?_
    intro y
    rw [Careful.busyOf_eq_of_removed h.coherent hidle, hchains]

theorem Model.coherent_of_empty (harena : m.arena = Arena.empty) (hkeys : m.products.keys = []) :
    m.Coherent := by
  have hnone : ∀ y, m.arena.get? y = none := by
    intro y
    rw [harena, Arena.get?_empty]
  refine ⟨by rw [harena]; exact Arena.stored_empty, by rw [harena]; exact Arena.forest_empty,
    ?_, ?_⟩
  · intro y j hj
    rw [hnone] at hj
    cases hj
  · intro y hy
    rw [hkeys] at hy
    cases hy

/-- **The invariant holds of every state of a run.** -/
theorem Reachable.sound {pending : List Pending} (h : Reachable pending m) : Sound pending m := by
  induction h with
  | empty harena hkeys =>
    refine ⟨Model.coherent_of_empty harena hkeys, ?_, List.Pairwise.nil, ?_⟩
    · intro p hp
      cases hp
    · intro x
      rw [Model.busyOf, harena]
      rfl
  | edit _ e ih =>
    obtain ⟨hcareful, hbusy⟩ := e.careful ih.coherent
    exact ih.of_careful hcareful (List.Sublist.refl _) fun x => (hbusy x).trans (ih.busy x)
  | enter _ hi ih => exact ih.enter hi
  | leave _ ih => exact ih.leave
  | place _ p ih => exact ih.place p
  | settle _ ih => exact ih.settle
  | discard _ ih => exact ih.discard

/-! ## The two ends of a stretch of a run -/

/-- **What time can do**: what is there at the end was there at the beginning, under the same
father, or is newer than everything that was. -/
structure Aged (m m' : Model β) : Prop where
  lastOrder : m.arena.lastOrder ≤ m'.arena.lastOrder
  origin : ∀ {y j}, m'.arena.get? y = some j →
    (∃ i, m.arena.get? y = some i ∧ i.order = j.order ∧ i.father = j.father) ∨
      m.arena.lastOrder < j.order

namespace Aged

theorem refl (m : Model β) : Aged m m :=
  ⟨Nat.le_refl _, fun {_ j} hj => Or.inl ⟨j, hj, rfl, rfl⟩⟩

theorem trans (h : Aged m m') (h' : Aged m' m'') : Aged m m'' := by
  have hle := h.lastOrder
  refine ⟨Nat.le_trans hle h'.lastOrder, ?_⟩
  intro y k hk
  rcases h'.origin hk with ⟨j, hj, horder, hfather⟩ | hlt
  · rcases h.origin hj with ⟨i, hi, horder', hfather'⟩ | hlt
    · exact Or.inl ⟨i, hi, horder'.trans horder, hfather'.trans hfather⟩
    · exact Or.inr (by omega)
  · exact Or.inr (by omega)

/-- **What lies under an instance at the end, and is not newer, lay under it at the beginning.** -/
theorem under_of_under (h : Aged m m') (hm : m.Coherent) (hm' : m'.Coherent)
    (hu : m'.arena.Under x y) (hj : m'.arena.get? y = some j)
    (hold : j.order ≤ m.arena.lastOrder) : m.arena.Under x y := by
  induction hu generalizing j with
  | self => exact .self
  | child _ hc ih =>
    obtain ⟨p, q, hp, hq, hfather, hlt⟩ := hm'.forest.child_of_childrenOf hc
    rw [hj] at hq
    cases hq
    -- The child was there, and so had the same father.
    rcases h.origin hj with ⟨i, hi, -, hsame⟩ | hnew
    · exact .of_father hm.forest (ih hp (by omega)) hi (hsame.trans hfather)
    · omega

end Aged

theorem Careful.aged (c : Careful m m') : Aged m m' := by
  refine ⟨c.lastOrder, ?_⟩
  intro y j hj
  rcases c.origin hj with h | ⟨-, h⟩
  · exact Or.inl h
  · exact Or.inr h

namespace Sound

variable {pending : List Pending}

/-- What is idle stays idle as long as the same chains are under way. -/
theorem idle_of_idle (h : Sound pending m) (h' : Sound pending m') (hx : m.busyOf x = 0) :
    m'.busyOf x = 0 := by
  rw [h'.busy, ← h.busy, hx]

/-- What is newer than the beginning is idle as long as the same chains are under way. -/
theorem idle_of_newer (h : Sound pending m) (h' : Sound pending m')
    (hj : m'.arena.get? x = some j) (hnew : m.arena.lastOrder < j.order) : m'.busyOf x = 0 := by
  apply Decidable.byContradiction
  intro hbusy
  obtain ⟨s, n, hmem⟩ := h'.exists_chain hbusy
  have hmoment := (h.held _ hmem).moment_le
  obtain ⟨-, k, hk, -, horder, -⟩ := h'.held _ hmem
  rw [hj] at hk
  cases hk
  simp only [Pending.moment] at hmoment
  omega

/-- **A subtree that was idle is idle** as long as the same chains are under way. -/
theorem idle_under (h : Sound pending m) (h' : Sound pending m') (aged : Aged m m')
    (hidle : ∀ y, m.arena.Under x y → m.busyOf y = 0) (hu : m'.arena.Under x y) :
    m'.busyOf y = 0 := by
  apply Decidable.byContradiction
  intro hbusy
  obtain ⟨j, hj⟩ := Model.present_of_busy hbusy
  by_cases hold : j.order ≤ m.arena.lastOrder
  · -- What is not new lay in the subtree before, and was idle there.
    have hunder := aged.under_of_under h.coherent h'.coherent hu hj hold
    exact hbusy (h.idle_of_idle h' (hidle y hunder))
  · exact hbusy (h.idle_of_newer h' hj (by omega))

/-- What a busy instance stands for is the same as long as the same chains are under way. -/
theorem standing_of_busy (h : Sound pending m) (h' : Sound pending m') (hx : m.busyOf x ≠ 0)
    (hi : m.arena.get? x = some i) :
    ∃ j, m'.arena.get? x = some j ∧ j.standing = i.standing := by
  obtain ⟨s, n, hmem⟩ := h.exists_chain hx
  obtain ⟨-, i', hi', hs, -⟩ := h.held _ hmem
  obtain ⟨-, j, hj, hs', -⟩ := h'.held _ hmem
  rw [hi] at hi'
  cases hi'
  exact ⟨j, hj, hs'.trans hs.symm⟩

end Sound

end ProductModel
