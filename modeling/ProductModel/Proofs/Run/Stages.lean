import ProductModel.Proofs.Run.Sound

/-!
# The stage of life in every state of a run

An instance is being initialized while its birth is under way, and live from then on.  Nothing else
is ever to be found in a model: the first stage ends before the creation gives control away, and the
last one begins and ends within one removal.  `Reachable.staged` says so for every state of a run.

A birth is told by the handle and by the place of the instance in the order of creation.  The handle
alone would not do, as a slot whose generations are used up starts over with the first.
-/

namespace ProductModel

variable {β : Type} {m m' : Model β} {pending : List Pending} {id x y : InstanceId}
  {i j : Instance β} {order moment : Nat}

/-- The stage of an instance's life, and its place in the order of creation. -/
def Instance.stage (i : Instance β) : InstanceState × Nat := (i.state, i.order)

theorem Instance.stage_eq (h : i.stage = j.stage) : i.state = j.state ∧ i.order = j.order :=
  Prod.mk.inj h

/-- **Whether the birth of an instance is under way.** -/
def BeingBorn (pending : List Pending) (x : InstanceId) (order : Nat) : Prop :=
  ∃ moment, Pending.birth x moment ∈ pending ∧ order = moment + 1

/-- **A model in which the instances that are being born are being initialized, and all others are
live.** -/
structure Model.Staged (pending : List Pending) (m : Model β) : Prop where
  stage : ∀ {x i}, m.arena.get? x = some i →
    (i.state = .initializing ∧ BeingBorn pending x i.order) ∨
      (i.state = .live ∧ ¬BeingBorn pending x i.order)
  /-- an instance that is being born has got its number -/
  numbered : ∀ {id moment}, Pending.birth id moment ∈ pending → moment < m.arena.lastOrder
  /-- what began later than a birth, began when the instance had got its number -/
  stacked : pending.Pairwise fun p q => ∀ id moment, q = .birth id moment → moment < p.moment

/-! ## What begins -/

theorem beingBorn_cons_chain {s : Standing} :
    BeingBorn (.chain id s moment :: pending) x order ↔ BeingBorn pending x order := by
  simp [BeingBorn]

theorem beingBorn_cons_birth :
    BeingBorn (.birth id moment :: pending) x order ↔
      (x = id ∧ order = moment + 1) ∨ BeingBorn pending x order := by
  constructor
  · rintro ⟨n, hmem, horder⟩
    rcases List.mem_cons.mp hmem with heq | hmem
    · cases heq
      exact Or.inl ⟨rfl, horder⟩
    · exact Or.inr ⟨n, hmem, horder⟩
  · rintro (⟨rfl, horder⟩ | ⟨n, hmem, horder⟩)
    · exact ⟨moment, List.mem_cons_self, horder⟩
    · exact ⟨n, List.mem_cons_of_mem _ hmem, horder⟩

namespace Model.Staged

/-- **Stages are as they should be** after a change that keeps the stage of whatever it keeps. -/
theorem of_back (h : m.Staged pending) (hlast : m.arena.lastOrder ≤ m'.arena.lastOrder)
    (hback : ∀ {y j}, m'.arena.get? y = some j →
      ∃ i, m.arena.get? y = some i ∧ i.stage = j.stage) : m'.Staged pending := by
  refine ⟨?_, fun hmem => Nat.lt_of_lt_of_le (h.numbered hmem) hlast, h.stacked⟩
  intro y j hj
  obtain ⟨i, hi, hstage⟩ := hback hj
  obtain ⟨hstate, horder⟩ := Instance.stage_eq hstage
  rw [← hstate, ← horder]
  exact h.stage hi

/-- A change that keeps all instances and their stages. -/
theorem of_stage (h : m.Staged pending) (hlast : m.arena.lastOrder ≤ m'.arena.lastOrder)
    (hstage : ∀ y, (m'.arena.get? y).map Instance.stage = (m.arena.get? y).map Instance.stage) :
    m'.Staged pending :=
  h.of_back hlast fun {y _} hj => Arena.exists_get?_of_map_eq (hstage y).symm hj

/-- Changing one instance in nothing that tells its stage. -/
theorem modify (h : m.Staged pending) (x : InstanceId) {f : Instance β → Instance β}
    (hf : ∀ i, (f i).stage = i.stage) : (m.modify x f).Staged pending :=
  h.of_stage (Nat.le_of_eq (Arena.lastOrder_modify f).symm)
    (Arena.map_get?_modify _ fun i _ => hf i)

/-- **A chain that begins.** -/
theorem enter (h : m.Staged pending) (x : InstanceId) (s : Standing) :
    (m.entering x).Staged (.chain x s m.arena.lastOrder :: pending) := by
  have h' := h.modify x (f := fun i => { i with busy := i.busy + 1 }) fun _ => rfl
  exact {
    stage := by
      intro y j hj
      rw [beingBorn_cons_chain]
      exact h'.stage hj
    numbered := by
      intro id moment hmem
      rcases List.mem_cons.mp hmem with heq | hmem
      · cases heq
      · exact h'.numbered hmem
    stacked := by
      refine List.pairwise_cons.mpr ⟨?_, h.stacked⟩
      rintro _ hmem id moment rfl
      exact h.numbered hmem }

/-- **A birth that begins**: the new instance is being initialized. -/
theorem place (h : m.Staged pending) (p : Placed m id i m') :
    m'.Staged (.birth id m.arena.lastOrder :: pending) := by
  have g := p.grown
  have hlast : m'.arena.lastOrder = m.arena.lastOrder + 1 := p.lastOrder.trans p.order
  exact {
    stage := by
      intro y k hk
      rw [beingBorn_cons_birth]
      rcases g.back hk with ⟨rfl, rfl⟩ | ⟨j, hj, hkj⟩
      · exact Or.inl ⟨p.state, Or.inl ⟨rfl, p.order⟩⟩
      · -- What was there before is not the new instance, so the new birth is not about it.
        have hne : y ≠ id := g.ne_of_present hj
        have hstate : k.state = j.state := by
          rw [hkj]
          split <;> rfl
        simp only [hne, false_and, false_or]
        rw [hstate, (Arena.Grown.father_eq hkj).2]
        exact h.stage hj
    numbered := by
      intro id' moment hmem
      rcases List.mem_cons.mp hmem with heq | hmem
      · cases heq
        omega
      · have hlt := h.numbered hmem
        omega
    stacked := by
      refine List.pairwise_cons.mpr ⟨?_, h.stacked⟩
      rintro _ hmem id' moment rfl
      exact h.numbered hmem }

/-! ## What ends -/

/-- What is under way ends, and no instance that is there was being born in it. -/
theorem ended {p : Pending} (h : m.Staged (p :: pending))
    (hborn : ∀ {x i}, m.arena.get? x = some i →
      (BeingBorn (p :: pending) x i.order ↔ BeingBorn pending x i.order)) :
    m.Staged pending := by
  refine ⟨?_, fun hmem => h.numbered (List.mem_cons_of_mem _ hmem),
    (List.pairwise_cons.mp h.stacked).2⟩
  intro x i hi
  rw [← hborn hi]
  exact h.stage hi

/-- **A chain that ends.** -/
theorem leave {s : Standing} (h : m.Staged (.chain x s moment :: pending)) :
    (m.leaving x).Staged pending :=
  (h.modify x (f := fun i => { i with busy := i.busy - 1 }) fun _ => rfl).ended
    fun _ => beingBorn_cons_chain

/-- **The birth that began last is the last one of whatever has its handle.** -/
theorem not_beingBorn (h : m.Staged (.birth id moment :: pending))
    (hs : Sound (.birth id moment :: pending) m) (hi : m.arena.get? id = some i) :
    ¬BeingBorn pending id i.order := by
  rintro ⟨n, hmem, horder⟩
  -- Another birth of the handle would have begun before the last one, and whatever has the handle
  -- now is newer than that.
  have hearlier := (List.pairwise_cons.mp h.stacked).1 _ hmem id n rfl
  have hnewer := (hs.held _ List.mem_cons_self).2 i hi
  simp only [Pending.moment] at hearlier
  omega

/-- **A birth that ends well**: the instance is live, if it is there. -/
theorem settle (h : m.Staged (.birth id moment :: pending))
    (hs : Sound (.birth id moment :: pending) m) : (m.settling id).Staged pending := by
  have hlast : (m.settling id).arena.lastOrder = m.arena.lastOrder := Arena.lastOrder_modify _
  refine ⟨?_, ?_, (List.pairwise_cons.mp h.stacked).2⟩
  · intro y j hj
    replace hj : (m.arena.modify id _).get? y = some j := hj
    by_cases hy : y = id
    · rw [hy, Arena.get?_modify_self] at hj
      obtain ⟨i, hi, rfl⟩ := Option.map_eq_some_iff.mp hj
      rw [hy]
      exact Or.inr ⟨rfl, not_beingBorn (i := i) h hs hi⟩
    · rw [Arena.get?_modify_of_ne hy] at hj
      have hstage := h.stage hj
      simp only [beingBorn_cons_birth, hy, false_and, false_or] at hstage
      exact hstage
  · intro id' n hmem
    rw [hlast]
    exact h.numbered (List.mem_cons_of_mem _ hmem)

/-- Removing a subtree keeps the stage of what stays. -/
theorem removeSubtree (h : m.Staged pending) (hm : m.Coherent) (id : InstanceId)
    (father : Option InstanceId) : (m.removeSubtree id father).2.Staged pending := by
  refine h.of_back (Nat.le_of_eq ?_) ?_
  · rw [m.arena_removeSubtree, Arena.lastOrder_prune]
  · intro y k hk
    obtain ⟨-, j, hj, hkj⟩ := (m.pruned_removeSubtree hm id father).back hk
    refine ⟨j, hj, ?_⟩
    rw [hkj]
    split <;> rfl

/-- **A birth that fails**: the instance is gone. -/
theorem discard (h : m.Staged (.birth id moment :: pending))
    (hs : Sound (.birth id moment :: pending) m) : (m.discarding id).Staged pending := by
  have hgone : (m.discarding id).arena.get? id = none := by
    unfold Model.discarding
    cases hi : m.arena.get? id with
    | none => exact hi
    | some i => exact (m.pruned_removeSubtree hs.coherent id i.father).gone .self
  have h' : (m.discarding id).Staged (.birth id moment :: pending) := by
    unfold Model.discarding
    cases m.arena.get? id with
    | none => exact h
    | some i => exact h.removeSubtree hs.coherent id i.father
  -- What is there has another handle, so the birth that ends was not about it.
  refine h'.ended ?_
  intro y j hj
  have hy : y ≠ id := by
    rintro rfl
    rw [hgone] at hj
    cases hj
  simp only [beingBorn_cons_birth, hy, false_and, false_or]

end Model.Staged

/-! ## The run -/

theorem Model.staged_of_empty (harena : m.arena = Arena.empty) : m.Staged [] := by
  refine ⟨?_, ?_, List.Pairwise.nil⟩
  · intro x i hi
    rw [harena, Arena.get?_empty] at hi
    cases hi
  · intro id moment hmem
    cases hmem

theorem Retouched.stage_back (r : Retouched m m') (hj : m'.arena.get? y = some j) :
    ∃ i, m.arena.get? y = some i ∧ i.stage = j.stage := by
  obtain ⟨i, hi, hlinks⟩ := Arena.exists_get?_of_map_eq (r.naming y).symm hj
  have hactivity := r.activity y
  rw [hj, hi] at hactivity
  have hstate : j.state = i.state := congrArg Prod.fst (Option.some.inj hactivity)
  have horder : i.order = j.order := (Instance.links_eq_iff.mp (congrArg Prod.fst hlinks)).2.2
  exact ⟨i, hi, Prod.ext hstate.symm horder⟩

/-- **Every edit keeps the stage of what it keeps.** -/
theorem Edit.staged (hm : m.Coherent) (e : Edit m m') (h : m.Staged pending) :
    m'.Staged pending := by
  have hlast := (e.careful hm).1.lastOrder
  cases e with
  | retouch r => exact h.of_back hlast r.stage_back
  | remember id => exact h.of_stage hlast ((Arena.onlyMemos_describe id).map_eq _ fun _ => rfl)
  | @rename id i name =>
    exact h.of_stage hlast fun _ => m.map_get?_renamed id name _ (fun _ => rfl) fun _ _ => rfl
  | drop _ _ _ => exact h.removeSubtree hm _ _

/-- **Instances are at the stage of their lives that what is under way says**, in every state of a
run. -/
theorem Reachable.staged (h : Reachable pending m) : m.Staged pending := by
  induction h with
  | empty harena _ => exact Model.staged_of_empty harena
  | edit r e ih => exact e.staged r.sound.coherent ih
  | enter _ _ ih => exact ih.enter _ _
  | leave _ ih => exact ih.leave
  | place _ p ih => exact ih.place p
  | settle r ih => exact ih.settle r.sound
  | discard r ih => exact ih.discard r.sound

end ProductModel
