import ProductModel.Proofs.ElementName
import ProductModel.Proofs.Run.Sound

/-!
# Names in every state of a run

`Model.WellNamed` says that local names are well-formed, that siblings have different ones, and that
the absolute names that are remembered are right.  `Reachable.wellNamed` derives it for every state
of a run from what the operations check when they give a name (`Placed.free` and the premises of
`Edit.rename`).

What is remembered for an instance depends on the names above it.  So a rename may leave it alone
outside of the renamed subtree, and a removal outside of the removed one; in both cases nothing that
stays has its path through the subtree.
-/

namespace ProductModel

variable {β : Type} {m m' : Model β} {a b : Arena β} {id x y c : InstanceId} {i : Instance β}
  {name : String}

/-- **A model whose names are in order.** -/
structure Model.WellNamed (m : Model β) : Prop where
  identifier : ∀ {x i}, m.arena.get? x = some i → Naming.isIdentifier i.localName = true
  distinct : m.arena.DistinctNames
  memos : m.arena.MemosRight

namespace Arena

/-! ## Siblings -/

theorem Forest.father_of_siblings (h : a.Forest) {father : Option InstanceId}
    (hx : x ∈ a.siblings father) : ∃ i, a.get? x = some i ∧ i.father = father := by
  cases father with
  | none => exact h.root.mp hx
  | some f =>
    obtain ⟨-, j, -, hj, hf, -⟩ := h.child_of_childrenOf hx
    exact ⟨j, hj, hf⟩

theorem Forest.mem_siblings (h : a.Forest) (hi : a.get? x = some i) :
    x ∈ a.siblings i.father := by
  cases hf : i.father with
  | none => exact h.root.mpr ⟨i, hi, hf⟩
  | some f => exact (h.mem_childrenOf hi).mpr hf

/-- Names are different among siblings in an arena that is a forest, if they are different among the
instances of one father. -/
theorem Forest.distinctNames (h : a.Forest)
    (hnames : ∀ {c d p q}, a.get? c = some p → a.get? d = some q → p.father = q.father →
      p.localName = q.localName → c = d) : a.DistinctNames := by
  intro father c hc d hd hname
  obtain ⟨p, hp, hpf⟩ := h.father_of_siblings hc
  obtain ⟨q, hq, hqf⟩ := h.father_of_siblings hd
  rw [localName?_eq hp, localName?_eq hq] at hname
  exact hnames hp hq (hpf.trans hqf.symm) (Option.some.inj hname)

/-- Instances of one father and one name are the same. -/
theorem DistinctNames.eq {d : InstanceId} {p q : Instance β} (hdistinct : a.DistinctNames)
    (h : a.Forest) (hp : a.get? c = some p) (hq : a.get? d = some q)
    (hfather : p.father = q.father) (hname : p.localName = q.localName) : c = d := by
  have hc := h.mem_siblings hp
  rw [hfather] at hc
  refine hdistinct _ c hc d (h.mem_siblings hq) ?_
  rw [localName?_eq hp, localName?_eq hq, hname]

/-- No instance of a father has a name that is free. -/
theorem NameFree.ne {father : Option InstanceId} (hfree : a.NameFree father name) (h : a.Forest)
    (hi : a.get? x = some i) (hfather : i.father = father) : i.localName ≠ name := by
  intro heq
  have hx := h.mem_siblings hi
  rw [hfather] at hx
  refine hfree x hx ?_
  rw [localName?_eq hi, heq]

/-! ## What is remembered -/

/-- **What is remembered stays right** when it is remembered only for instances whose paths are
kept. -/
theorem MemosRight.transfer (keeps : InstanceId → Prop) (h : a.MemosRight)
    (hmemo : ∀ {y j n}, b.get? y = some j → j.memo = some n →
      keeps y ∧ ∃ i, a.get? y = some i ∧ i.memo = some n)
    (hup : ∀ {y i f}, keeps y → a.get? y = some i → i.father = some f → keeps f)
    (hsame : ∀ {y i}, keeps y → a.get? y = some i →
      ∃ j, b.get? y = some j ∧ j.father = i.father ∧ j.localName = i.localName) :
    b.MemosRight := by
  intro y j n hj hn
  obtain ⟨hkeeps, i, hi, hin⟩ := hmemo hj hn
  exact (h hi hin).transfer keeps hkeeps hup hsame

end Arena

namespace Model.WellNamed

/-- **Names stay in order** when all instances but one at most keep father and name, and the one has
got a well-formed name that none of its siblings has. -/
theorem of_one (h : m.WellNamed) (hm : m.Coherent) (hm' : m'.Coherent) (one : Option InstanceId)
    (hone : ∀ {x j}, one = some x → m'.arena.get? x = some j →
      Naming.isIdentifier j.localName = true ∧
        ∀ {c i}, m.arena.get? c = some i → i.father = j.father → i.localName ≠ j.localName)
    (hback : ∀ {y j}, one ≠ some y → m'.arena.get? y = some j →
      ∃ i, m.arena.get? y = some i ∧ i.father = j.father ∧ i.localName = j.localName)
    (hmemos : m'.arena.MemosRight) : m'.WellNamed := by
  refine ⟨?_, hm'.forest.distinctNames ?_, hmemos⟩
  · intro x j hj
    by_cases hx : one = some x
    · exact (hone hx hj).1
    · obtain ⟨i, hi, -, hname⟩ := hback hx hj
      rw [← hname]
      exact h.identifier hi
  · -- Two that kept their names are told apart as before, the one by the name it has got.
    intro c d p q hp hq hfather hname
    by_cases hc : one = some c
    · by_cases hd : one = some d
      · exact Option.some.inj (hc.symm.trans hd)
      · obtain ⟨q', hq', hqf, hqn⟩ := hback hd hq
        exact absurd (hqn.trans hname.symm) ((hone hc hp).2 hq' (hqf.trans hfather.symm))
    · obtain ⟨p', hp', hpf, hpn⟩ := hback hc hp
      by_cases hd : one = some d
      · exact absurd (hpn.trans hname) ((hone hd hq).2 hp' (hpf.trans hfather))
      · obtain ⟨q', hq', hqf, hqn⟩ := hback hd hq
        exact h.distinct.eq hm.forest hp' hq' (by rw [hpf, hqf, hfather]) (by rw [hpn, hqn, hname])

/-- **Names stay in order** when all instances that stay keep father and name. -/
theorem of_back (h : m.WellNamed) (hm : m.Coherent) (hm' : m'.Coherent)
    (hback : ∀ {y j}, m'.arena.get? y = some j →
      ∃ i, m.arena.get? y = some i ∧ i.father = j.father ∧ i.localName = j.localName)
    (hmemos : m'.arena.MemosRight) : m'.WellNamed :=
  h.of_one hm hm' none (fun hnone => by cases hnone) (fun _ hj => hback hj) hmemos

/-- A change that concerns no place, no name and nothing that is remembered. -/
theorem of_naming (h : m.WellNamed) (hm : m.Coherent) (hm' : m'.Coherent)
    (hnaming : ∀ y, (m'.arena.get? y).map Instance.naming = (m.arena.get? y).map Instance.naming) :
    m'.WellNamed := by
  have hparts : ∀ {i j : Instance β}, i.naming = j.naming →
      i.father = j.father ∧ i.localName = j.localName ∧ i.memo = j.memo := by
    intro i j hij
    obtain ⟨hlinks, hname, hmemo⟩ : i.links = j.links ∧ i.localName = j.localName ∧
      i.memo = j.memo := by simpa [Instance.naming] using hij
    exact ⟨(Instance.links_eq_iff.mp hlinks).1, hname, hmemo⟩
  -- The same instances are there, before and after, with the same parts.
  have hforth : ∀ {y i}, m.arena.get? y = some i →
      ∃ j, m'.arena.get? y = some j ∧ j.naming = i.naming := by
    intro y i hi
    exact Arena.exists_get?_of_map_eq (hnaming y) hi
  have hback : ∀ {y j}, m'.arena.get? y = some j →
      ∃ i, m.arena.get? y = some i ∧ i.naming = j.naming := by
    intro y j hj
    exact Arena.exists_get?_of_map_eq (hnaming y).symm hj
  refine h.of_back hm hm' ?_ (Arena.MemosRight.transfer (fun _ => True) h.memos ?_
    (fun _ _ _ => trivial) ?_)
  · intro y j hj
    obtain ⟨i, hi, hij⟩ := hback hj
    exact ⟨i, hi, (hparts hij).1, (hparts hij).2.1⟩
  · intro y j n hj hn
    obtain ⟨i, hi, hij⟩ := hback hj
    exact ⟨trivial, i, hi, (hparts hij).2.2.trans hn⟩
  · intro y i _ hi
    obtain ⟨j, hj, hji⟩ := hforth hi
    exact ⟨j, hj, (hparts hji).1, (hparts hji).2.1⟩

/-- Changing one instance in nothing that names are made from. -/
theorem modify (h : m.WellNamed) (hm : m.Coherent) {f : Instance β → Instance β}
    (hm' : (m.modify x f).Coherent) (hf : ∀ i, (f i).naming = i.naming) :
    (m.modify x f).WellNamed :=
  h.of_naming hm hm' (Arena.map_get?_modify _ fun i _ => hf i)

/-- Remembering names that are right. -/
theorem remembering (h : m.WellNamed) (hm : m.Coherent) (id : InstanceId) :
    (m.remembering id).WellNamed := by
  have only := Arena.onlyMemos_describe (a := m.arena) id
  refine h.of_back hm (careful_remembering hm id).coherent ?_
    (Arena.MemosRight.describe h.memos id)
  intro y j hj
  obtain ⟨i, hi, hji⟩ := only.back hj
  exact ⟨i, hi, (Instance.eq_of_forgetName hji (·.father) fun _ => rfl).symm,
    (Instance.eq_of_forgetName hji (·.localName) fun _ => rfl).symm⟩

/-! ## Another name -/

/-- An instance outside of a renamed subtree is what it was. -/
theorem get?_renamed_of_not_under (hm : m.Coherent) (hy : ¬m.arena.Under id y) :
    (m.renamed id name).arena.get? y = m.arena.get? y := by
  have hne : y ≠ id := by
    rintro rfl
    exact hy .self
  have hmem : y ∉ m.arena.preorder id := fun h => hy (hm.forest.mem_preorder.mp h)
  rw [m.get?_renamed]
  simp only [if_neg hne, if_neg hmem]

/-- Nothing is remembered for an instance in a renamed subtree. -/
theorem memo_renamed_of_under (hm : m.Coherent) (hy : m.arena.Under id y) {j : Instance β}
    (hj : (m.renamed id name).arena.get? y = some j) : j.memo = none := by
  have hmem : y ∈ m.arena.preorder id := hm.forest.mem_preorder.mpr hy
  rw [m.get?_renamed] at hj
  simp only [if_pos hmem] at hj
  obtain ⟨i, -, rfl⟩ := Option.map_eq_some_iff.mp hj
  rfl

/-- **A rename** to a free name. -/
theorem renamed (h : m.WellNamed) (hm : m.Coherent) (hidle : m.busyOf id = 0)
    (hi : m.arena.get? id = some i) (hname : Naming.isIdentifier name = true)
    (hfree : m.arena.NameFree i.father name) : (m.renamed id name).WellNamed := by
  have hm' := (careful_renamed hm name hidle).coherent
  refine h.of_one hm hm' (some id) ?_ ?_ ?_
  · rintro _ j ⟨⟩ hj
    have hlinks := m.map_get?_renamed (y := id) id name (·.father) (fun _ => rfl) fun _ _ => rfl
    rw [hi, hj] at hlinks
    have hfather : j.father = i.father := Option.some.inj hlinks
    -- The renamed instance has the name, which none of its siblings had.
    have hlocal : j.localName = name := by
      have hmem : id ∈ m.arena.preorder id := hm.forest.mem_preorder.mpr .self
      rw [m.get?_renamed] at hj
      simp only [if_pos hmem, if_true, hi, Option.map_some] at hj
      rw [← Option.some.inj hj]
      rfl
    rw [hlocal]
    refine ⟨hname, ?_⟩
    intro c k hk hkf
    exact hfree.ne hm.forest hk (hkf.trans hfather)
  · intro y j hne hj
    have hsame := m.map_get?_renamed (y := y) id name (fun i => (i.father, i.localName))
      (fun _ => rfl) fun _ heq => absurd (congrArg some heq.symm) hne
    obtain ⟨k, hk, hkj⟩ := Arena.exists_get?_of_map_eq hsame.symm hj
    obtain ⟨hfather, hlocal⟩ := Prod.mk.inj hkj
    exact ⟨k, hk, hfather, hlocal⟩
  · -- In the renamed subtree nothing is remembered, and a path outside of it does not enter it.
    refine Arena.MemosRight.transfer (fun y => ¬m.arena.Under id y) h.memos ?_ ?_ ?_
    · intro y j n hj hn
      by_cases hunder : m.arena.Under id y
      · rw [memo_renamed_of_under hm hunder hj] at hn
        cases hn
      · rw [get?_renamed_of_not_under hm hunder] at hj
        exact ⟨hunder, j, hj, hn⟩
    · intro y k f hy hk hf hunder
      exact hy (hunder.of_father hm.forest hk hf)
    · intro y k hy hk
      exact ⟨k, by rw [get?_renamed_of_not_under hm hy, hk], rfl, rfl⟩

/-! ## Less and more instances -/

/-- **A removal** of a subtree. -/
theorem removeSubtree (h : m.WellNamed) (hm : m.Coherent)
    (hm' : (m.removeSubtree id i.father).2.Coherent) :
    (m.removeSubtree id i.father).2.WellNamed := by
  have p := m.pruned_removeSubtree hm id i.father
  refine h.of_back hm hm' ?_ ?_
  · intro y k hk
    obtain ⟨-, j, hj, hkj⟩ := p.back hk
    refine ⟨j, hj, (Arena.Pruned.father_eq hkj).1.symm, ?_⟩
    rw [hkj]
    split <;> rfl
  · refine Arena.MemosRight.transfer (fun y => ¬m.arena.Under id y) h.memos ?_ ?_ ?_
    · intro y k n hk hn
      obtain ⟨hunder, j, hj, hkj⟩ := p.back hk
      refine ⟨hunder, j, hj, ?_⟩
      rw [← hn, hkj]
      split <;> rfl
    · intro y k f hy hk hf hunder
      exact hy (hunder.of_father hm.forest hk hf)
    · intro y j hy hj
      refine ⟨_, p.forth hy hj, (Arena.Pruned.father_eq rfl).1, ?_⟩
      split <;> rfl

/-- **A new instance** under a free name. -/
theorem place (h : m.WellNamed) (hm : m.Coherent) (p : Placed m id i m') : m'.WellNamed := by
  have g := p.grown
  refine h.of_one hm (p.careful hm).coherent (some id) ?_ ?_ ?_
  · rintro _ j ⟨⟩ hj
    rw [g.new] at hj
    cases hj
    refine ⟨p.identifier, ?_⟩
    intro c k hk hkf
    exact p.free.ne hm.forest hk hkf
  · intro y k hne hk
    rcases g.back hk with ⟨hy, -⟩ | ⟨j, hj, hkj⟩
    · exact absurd (congrArg some hy.symm) hne
    · refine ⟨j, hj, (Arena.Grown.father_eq hkj).1.symm, ?_⟩
      rw [hkj]
      split <;> rfl
  · -- The new instance remembers no name, and has nothing under it.
    refine Arena.MemosRight.transfer (fun y => ∃ j, m.arena.get? y = some j) h.memos
      ?_ ?_ ?_
    · intro y k n hk hn
      rcases g.back hk with ⟨-, rfl⟩ | ⟨j, hj, hkj⟩
      · rw [p.memo] at hn
        cases hn
      · refine ⟨⟨j, hj⟩, j, hj, ?_⟩
        rw [← hn, hkj]
        split <;> rfl
    · intro y j f _ hj hf
      obtain ⟨q, hq, -⟩ := hm.forest.father hj hf
      exact ⟨q, hq⟩
    · intro y j _ hj
      refine ⟨_, g.forth hj, (Arena.Grown.father_eq rfl).1, ?_⟩
      split <;> rfl

end Model.WellNamed

/-! ## The run -/

theorem Model.wellNamed_of_empty (harena : m.arena = Arena.empty) (hkeys : m.products.keys = []) :
    m.WellNamed := by
  have hm := Model.coherent_of_empty harena hkeys
  have hnone : ∀ {y j}, m.arena.get? y ≠ some j := by
    intro y j hj
    rw [harena, Arena.get?_empty] at hj
    cases hj
  refine ⟨fun hj => absurd hj hnone, hm.forest.distinctNames fun hp => absurd hp hnone, ?_⟩
  intro y j n hj
  exact absurd hj hnone

/-- **Every edit keeps names in order.** -/
theorem Edit.wellNamed (hm : m.Coherent) (e : Edit m m') (h : m.WellNamed) : m'.WellNamed := by
  have hm' := (e.careful hm).1.coherent
  cases e with
  | retouch r => exact h.of_naming hm hm' r.naming
  | remember id => exact h.remembering hm id
  | rename hi hidle _ hname hfree => exact h.renamed hm hidle hi hname hfree
  | drop hi _ _ => exact h.removeSubtree hm hm'

/-- **Names are in order in every state of a run.** -/
theorem Reachable.wellNamed {pending : List Pending} (h : Reachable pending m) : m.WellNamed := by
  induction h with
  | empty harena hkeys => exact Model.wellNamed_of_empty harena hkeys
  | edit r e ih => exact e.wellNamed r.sound.coherent ih
  | enter r hi ih => exact ih.modify r.sound.coherent (r.sound.enter hi).coherent fun _ => rfl
  | leave r ih => exact ih.modify r.sound.coherent r.sound.leave.coherent fun _ => rfl
  | place r p ih => exact ih.place r.sound.coherent p
  | settle r ih => exact ih.modify r.sound.coherent r.sound.settle.coherent fun _ => rfl
  | @discard pending m id moment r ih =>
    have hm' := r.sound.discard.coherent
    unfold Model.discarding at hm' ⊢
    cases hi : m.arena.get? id with
    | none => exact ih
    | some i =>
      rw [hi] at hm'
      exact ih.removeSubtree r.sound.coherent hm'

end ProductModel
