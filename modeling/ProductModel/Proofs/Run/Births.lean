import ProductModel.Proofs.Run.Stages

/-!
# Instances that are being born

An initializer may remove whatever is live, above its instance too.  Its instance itself is not live
yet, so the instance goes only with a removal from above, and then its father has gone as well.
`Spared` says this of a stretch of a run, from one model to another; the lemmas say it of every step
of a run.

An instance that has gone may have left its handle to another one, which is newer.  A father is
older than his children, so what is found in the place of a father is the father exactly if it is
not newer than the child.
-/

namespace ProductModel

variable {β : Type} {m m' m'' : Model β} {pending : List Pending} {id x y : InstanceId}
  {i j : Instance β} {order moment : Nat}

/-- **Whether the father of an instance is gone**: there is nothing in the place of the father, or
something newer than the instance. -/
def Model.Fatherless (m : Model β) (i : Instance β) : Prop :=
  ∃ f, i.father = some f ∧ ∀ j, m.arena.get? f = some j → i.order < j.order

/-- **Births that a stretch of a run spares**: what is being born throughout is still there at the
end, or its father is gone. -/
structure Spared (pending : List Pending) (m m' : Model β) : Prop where
  lasts : ∀ {x i}, m.arena.get? x = some i → BeingBorn pending x i.order →
    i.order ≤ m.arena.lastOrder →
    (∃ j, m'.arena.get? x = some j ∧ j.order = i.order ∧ j.father = i.father) ∨ m'.Fatherless i

/-- A father who is gone does not come back. -/
theorem Model.Fatherless.later (h : m.Fatherless i) (aged : Aged m m')
    (hold : i.order ≤ m.arena.lastOrder) : m'.Fatherless i := by
  obtain ⟨f, hf, hgone⟩ := h
  refine ⟨f, hf, fun k hk => ?_⟩
  rcases aged.origin hk with ⟨j, hj, horder, -⟩ | hnew
  · rw [← horder]
    exact hgone j hj
  · exact Nat.lt_of_le_of_lt hold hnew

/-- What was live and is there after some time, with the same under way, is live. -/
theorem Model.Staged.live_later (h : m.Staged pending) (h' : m'.Staged pending) (aged : Aged m m')
    (hi : m.arena.get? x = some i) (hlive : i.state = .live) (hj : m'.arena.get? x = some j) :
    j.state = .live := by
  rcases h'.stage hj with ⟨-, hborn⟩ | ⟨hstate, -⟩
  · -- What is being born has got its number before, so it is what was there.
    have hborn' := hborn
    obtain ⟨n, hmem, horder⟩ := hborn
    have hnumbered := h.numbered hmem
    rcases aged.origin hj with ⟨i', hi', horder', -⟩ | hnew
    · rw [hi] at hi'
      cases hi'
      rw [← horder'] at hborn'
      rcases h.stage hi with ⟨hstate, -⟩ | ⟨-, hnot⟩
      · rw [hlive] at hstate
        cases hstate
      · exact absurd hborn' hnot
    · omega
  · exact hstate

namespace Spared

/-- A step that leaves every instance its place. -/
theorem of_forth (h : ∀ {y i}, m.arena.get? y = some i →
    ∃ j, m'.arena.get? y = some j ∧ j.order = i.order ∧ j.father = i.father) :
    Spared pending m m' :=
  ⟨fun hi _ _ => Or.inl (h hi)⟩

theorem refl (pending : List Pending) (m : Model β) : Spared pending m m :=
  of_forth fun hi => ⟨_, hi, rfl, rfl⟩

theorem trans (h : Spared pending m m') (h' : Spared pending m' m'') (aged : Aged m m')
    (aged' : Aged m' m'') : Spared pending m m'' := by
  constructor
  intro x i hi hborn hold
  have hold' := Nat.le_trans hold aged.lastOrder
  rcases h.lasts hi hborn hold with ⟨j, hj, horder, hfather⟩ | hgone
  · rw [← horder] at hborn hold'
    rcases h'.lasts hj hborn hold' with ⟨k, hk, horder', hfather'⟩ | hgone
    · exact Or.inl ⟨k, hk, horder'.trans horder, hfather'.trans hfather⟩
    · refine Or.inr ?_
      unfold Model.Fatherless at *
      rwa [hfather, horder] at hgone
  · exact Or.inr (hgone.later aged' hold')

/-- What is spared while more is under way. -/
theorem of_cons {p : Pending} (h : Spared (p :: pending) m m') : Spared pending m m' := by
  constructor
  rintro x i hi ⟨n, hmem, horder⟩ hold
  exact h.lasts hi ⟨n, List.mem_cons_of_mem _ hmem, horder⟩ hold

/-- A change that shows in neither the place of an instance nor its number. -/
theorem of_links (h : ∀ y,
    (m'.arena.get? y).map Instance.links = (m.arena.get? y).map Instance.links) :
    Spared pending m m' := by
  refine of_forth fun {y i} hi => ?_
  obtain ⟨j, hj, hlinks⟩ := Arena.exists_get?_of_map_eq (h y) hi
  obtain ⟨hfather, -, horder⟩ := Instance.links_eq_iff.mp hlinks
  exact ⟨j, hj, horder, hfather⟩

theorem modify (m : Model β) (id : InstanceId) {f : Instance β → Instance β}
    (hf : ∀ i, (f i).links = i.links) : Spared pending m (m.modify id f) :=
  of_links fun y => Arena.map_get?_modify _ (fun i _ => hf i) y

theorem remembering (m : Model β) (id : InstanceId) : Spared pending m (m.remembering id) :=
  of_links fun y => (Arena.onlyMemos_describe id).map_eq _ (fun _ => rfl) y

theorem renamed (m : Model β) (id : InstanceId) (name : String) :
    Spared pending m (m.renamed id name) :=
  of_links fun _ => m.map_get?_renamed id name _ (fun _ => rfl) fun _ _ => rfl

/-- **Placing an instance** takes nothing away. -/
theorem place (p : Placed m id i m') : Spared pending m m' := by
  refine of_forth fun {y j} hj => ⟨_, p.grown.forth hj, ?_⟩
  split <;> exact ⟨rfl, rfl⟩

/-- What stays in a removal. -/
theorem kept (hm : m.Coherent) (father : Option InstanceId) (hunder : ¬m.arena.Under id y)
    (hj : m.arena.get? y = some j) :
    ∃ k, (m.removeSubtree id father).2.arena.get? y = some k ∧ k.order = j.order ∧
      k.father = j.father := by
  refine ⟨_, (m.pruned_removeSubtree hm id father).forth hunder hj, ?_⟩
  split <;> exact ⟨rfl, rfl⟩

/-- **Removing a live instance.**  What is being born under it loses its father. -/
theorem removeSubtree (hm : m.Coherent) (hstaged : m.Staged pending)
    (hi : m.arena.get? id = some i) (hlive : i.state = .live) :
    Spared pending m (m.removeSubtree id i.father).2 := by
  constructor
  intro x j hj hborn _
  by_cases hunder : m.arena.Under id x
  · rcases hunder.eq_or_father with rfl | ⟨f, hf, hchild⟩
    · rw [hi] at hj
      cases hj
      rcases hstaged.stage hi with ⟨hstate, -⟩ | ⟨-, hnot⟩
      · rw [hlive] at hstate
        cases hstate
      · exact absurd hborn hnot
    · refine Or.inr ⟨f, (hm.forest.mem_childrenOf hj).mp hchild, fun k hk => ?_⟩
      rw [(m.pruned_removeSubtree hm id i.father).gone hf] at hk
      cases hk
  · exact Or.inl (kept hm _ hunder hj)

/-- **Discarding the instance that was placed last**: those whose births are under way around that
are older, so they do not lie under it. -/
theorem discarding (hs : Sound (.birth id moment :: pending) m)
    (hstaged : m.Staged (.birth id moment :: pending)) : Spared pending m (m.discarding id) := by
  unfold Model.discarding
  cases hi : m.arena.get? id with
  | none => exact .refl _ _
  | some i =>
    constructor
    rintro x j hj ⟨n, hmem, horder⟩ -
    refine Or.inl (kept hs.coherent _ (fun hunder => ?_) hj)
    have hearlier := (List.pairwise_cons.mp hstaged.stacked).1 _ hmem x n rfl
    have hnewer := (hs.held _ List.mem_cons_self).2 i hi
    have hle := hunder.order_le hs.coherent.forest
    rw [Arena.orderOf_eq hi, Arena.orderOf_eq hj] at hle
    simp only [Pending.moment] at hearlier
    omega

end Spared

/-- A change that concerns no places takes nothing away. -/
theorem Retouched.spared (r : Retouched m m') : Spared pending m m' := by
  refine Spared.of_links fun y => ?_
  have hlinks := congrArg (Option.map Prod.fst) (r.naming y)
  rw [Option.map_map, Option.map_map] at hlinks
  exact hlinks

end ProductModel
