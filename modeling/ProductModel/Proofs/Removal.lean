import ProductModel.Proofs.Arena.Postorder
import ProductModel.Proofs.Run.Unobtrusive
import ProductModel.Showroom

/-!
# What a removal destroys

A removal asks the rules of the father first, and they may do whatever operations can do: make
instances in the subtree, take some away, take the instance itself away.  What goes is the subtree
as it stands when they have finished, and this is stated against the world in which they have.

* `Engine.Hearing` says how the rules are asked and how that ended.
* `Model.Removal` says what is destroyed and what is left.
* `Engine.RemovalEnds` puts the two together for each way in which a removal ends.

## Design

`Model.removeSubtree` decides first which instances go and lets them go then.  The procedure that it
stands for descends the tree while it frees slots: each instance enters its last stage, the subtrees
of its children go one by one, and then it goes itself.  `Model.tearDown` is this procedure, and it
comes to the same in a coherent model (`removeSubtree_eq_tearDown`): no list of children is looked
at after it has changed.
-/

namespace ProductModel

open ProductModel.Action

variable {β σ : Type} {m m' m'' : Model β} {w w' : World β σ} {id x y c father : InstanceId}
  {i j : Instance β}

/-! ## Lists that lose an entry -/

/-- **A list loses an entry** that it has once, and keeps its order. -/
def Loses {α : Type} (xs ys : List α) (x : α) : Prop :=
  ∃ before after, xs = before ++ x :: after ∧ x ∉ before ++ after ∧ ys = before ++ after

/-- A list without repetition loses the entry that is struck off. -/
theorem loses_filter {xs : List InstanceId} (hnodup : xs.Nodup) (hx : x ∈ xs) :
    Loses xs (xs.filter (· ≠ x)) x := by
  obtain ⟨before, after, rfl⟩ := List.append_of_mem hx
  obtain ⟨-, hafter, hapart⟩ := List.nodup_append.mp hnodup
  have hbefore : x ∉ before := fun h => hapart x h x List.mem_cons_self rfl
  have hnext : x ∉ after := (List.nodup_cons.mp hafter).1
  refine ⟨before, after, rfl, fun h => (List.mem_append.mp h).elim hbefore hnext, ?_⟩
  rw [List.filter_append, List.filter_cons_of_neg (by simp),
    InstanceId.filter_ne_of_not_mem hbefore, InstanceId.filter_ne_of_not_mem hnext]

/-! ## Tearing a subtree down -/

namespace Model

/-- The model without several instances and the product data kept for them. -/
def losing (m : Model β) (ids : List InstanceId) : Model β :=
  { m with arena := m.arena.removeAll ids, products := ids.foldl Association.erase m.products }

/-- The model in which an instance is in the last stage of its life. -/
def doomed (m : Model β) (id : InstanceId) : Model β :=
  m.modify id fun i => { i with state := .removing }

theorem losing_nil (m : Model β) : m.losing [] = m := rfl

theorem losing_append (m : Model β) (ids ids' : List InstanceId) :
    m.losing (ids ++ ids') = (m.losing ids).losing ids' := by
  unfold losing Arena.removeAll
  rw [List.foldl_append, List.foldl_append]

theorem get?_losing (m : Model β) {ids : List InstanceId} (hy : y ∉ ids) :
    (m.losing ids).arena.get? y = m.arena.get? y := by
  rw [losing, Arena.get?_removeAll, if_neg hy]

/-- In which stage an instance went does not matter. -/
theorem losing_doomed (m : Model β) {ids : List InstanceId} (hid : id ∈ ids) :
    (m.doomed id).losing ids = m.losing ids := by
  have hmem : ∀ x ∈ [id], x ∈ ids := by simpa using hid
  have hremoved := Arena.removeAll_modifyAll (a := m.arena) hmem fun i =>
    { i with state := .removing }
  unfold losing doomed modify
  rw [show (m.arena.modify id _).removeAll ids = m.arena.removeAll ids from hremoved]

/-- **Tears a subtree down**, `limit` levels deep, and adds what goes to what is gone already: the
instance enters its last stage, the subtrees of its children go, and then it goes itself. -/
def tearDownTo : Nat → InstanceId → List InstanceId × Model β → List InstanceId × Model β
  | 0, _, s => s
  | limit + 1, id, (destroyed, m) =>
    match m.arena.get? id with
    | none => (destroyed, m)
    | some i =>
      let (destroyed, m) := i.children.foldl (fun s c => tearDownTo limit c s)
        (destroyed, m.doomed id)
      (destroyed ++ [id], m.losing [id])

/-- **Tears a subtree down** and takes its top off the father's children. -/
def tearDown (m : Model β) (id : InstanceId) (father : Option InstanceId) :
    List InstanceId × Model β :=
  let (destroyed, m) := tearDownTo (m.arena.depthLimit + 1) id ([], m)
  (destroyed, match father with
    | some f => m.modify f fun i => { i with children := i.children.filter (· ≠ id) }
    | none => m)

/-- **The subtrees of siblings go one after the other**, each as it would alone: what went with the
first ones is not under the next one. -/
theorem foldl_tearDownTo_eq {a : Arena β} (ha : a.Forest) {limit : Nat}
    {below : InstanceId → List InstanceId}
    (hbelow : ∀ c ∈ a.childrenOf x, a.Postorder c (below c))
    (halone : ∀ c ∈ a.childrenOf x, ∀ {m : Model β},
      (∀ y, a.Under c y → m.arena.get? y = a.get? y) → ∀ destroyed,
        tearDownTo limit c (destroyed, m) = (destroyed ++ below c, m.losing (below c)))
    {cs : List InstanceId} (hnodup : cs.Nodup) (hmem : ∀ c ∈ cs, c ∈ a.childrenOf x)
    (hsame : ∀ c ∈ cs, ∀ y, a.Under c y → m.arena.get? y = a.get? y)
    (destroyed : List InstanceId) :
    cs.foldl (fun s c => tearDownTo limit c s) (destroyed, m) =
      (destroyed ++ cs.flatMap below, m.losing (cs.flatMap below)) := by
  induction cs generalizing m destroyed with
  | nil =>
    rw [List.flatMap_nil, List.append_nil, losing_nil]
    rfl
  | cons c cs ih =>
    obtain ⟨hfirst, hnodup⟩ := List.nodup_cons.mp hnodup
    have hc := hmem c List.mem_cons_self
    have hrest : ∀ d ∈ cs, d ∈ a.childrenOf x := fun d hd => hmem d (List.mem_cons_of_mem c hd)
    have hkept : ∀ d ∈ cs, ∀ y, a.Under d y →
        (m.losing (below c)).arena.get? y = a.get? y := by
      intro d hd y hy
      have hne : y ∉ below c := by
        intro hyc
        have heq := Arena.Under.eq_of_siblings ha hc (hrest d hd)
          ((hbelow c hc).mem_iff.mp hyc) hy
        exact hfirst (heq ▸ hd)
      rw [get?_losing m hne]
      exact hsame d (List.mem_cons_of_mem c hd) y hy
    rw [List.foldl_cons, halone c hc (hsame c List.mem_cons_self), ih hnodup hrest hkept,
      List.flatMap_cons, List.append_assoc, losing_append]

/-- **Tearing down destroys in post-order**, as long as the subtree is what it was when the list was
made. -/
theorem tearDownTo_eq {a : Arena β} (ha : a.Forest) {limit : Nat} {ids : List InstanceId}
    (hids : a.Postorder x ids) (hthere : ∃ i, a.get? x = some i)
    (hlimit : a.later (a.orderOf x) < limit) (hsame : ∀ y, a.Under x y →
      m.arena.get? y = a.get? y) (destroyed : List InstanceId) :
    tearDownTo limit x (destroyed, m) = (destroyed ++ ids, m.losing ids) := by
  induction hids generalizing limit m destroyed with
  | @node x below hbelow ih =>
    obtain ⟨limit, rfl⟩ : ∃ n, limit = n + 1 := ⟨limit - 1, by omega⟩
    obtain ⟨i, hi⟩ := hthere
    have halone : ∀ c ∈ a.childrenOf x, ∀ {m : Model β},
        (∀ y, a.Under c y → m.arena.get? y = a.get? y) → ∀ destroyed,
          tearDownTo limit c (destroyed, m) = (destroyed ++ below c, m.losing (below c)) := by
      intro c hc m hunder destroyed
      obtain ⟨_, k, _, hk, -⟩ := ha.child_of_childrenOf hc
      have hlater := ha.later_child_lt hc
      exact ih c hc ⟨k, hk⟩ (by omega) hunder destroyed
    have hdoomed : ∀ c ∈ a.childrenOf x, ∀ y, a.Under c y →
        (m.doomed x).arena.get? y = a.get? y := by
      intro c hc y hy
      have hne : y ≠ x := by
        rintro rfl
        exact Arena.Under.not_of_child ha hc hy
      show (m.arena.modify x _).get? y = _
      rw [Arena.get?_modify_of_ne hne]
      exact hsame y (.of_child hc hy)
    have hnodup : (a.childrenOf x).Nodup := Arena.nodup_of_sorted (ha.childrenOf_sorted x)
    have hlist : i.children = a.childrenOf x := (Arena.childrenOf_eq hi).symm
    have hrest := foldl_tearDownTo_eq ha hbelow halone hnodup (fun c hc => hc) hdoomed destroyed
    simp only [tearDownTo, hsame x .self, hi, hlist, hrest, List.append_assoc]
    rw [← losing_append, losing_doomed m (List.mem_append_right _ List.mem_cons_self)]

/-- **Removing a subtree is tearing it down.** -/
theorem removeSubtree_eq_tearDown (h : m.Coherent) (hi : m.arena.get? id = some i)
    (father : Option InstanceId) : m.removeSubtree id father = m.tearDown id father := by
  have htorn := tearDownTo_eq h.forest (h.forest.postorder_postorder id) ⟨i, hi⟩
    (Nat.lt_succ_of_le (Arena.later_le_depthLimit _)) (m := m) (fun _ _ => rfl) []
  have hall : ∀ x ∈ m.arena.postorder id, x ∈ m.arena.postorder id := fun _ hx => hx
  have hmarked := Arena.removeAll_modifyAll (a := m.arena) hall fun i =>
    { i with state := .removing }
  unfold tearDown removeSubtree
  rw [htorn]
  simp only [hmarked, List.nil_append]
  cases father <;> rfl

/-! ## What is destroyed and what is left -/

/-- **A subtree was removed, and nothing else.**  Kept instances are what they were, apart from
remembered names. -/
structure Removal (m m' : Model β) (id : InstanceId) (above : Option InstanceId)
    (destroyed : List InstanceId) : Prop where
  /-- the subtree is listed with children before their father -/
  postorder : m.arena.Postorder id destroyed
  /-- the children are in order of creation -/
  sorted : ∀ y, (m.arena.childrenOf y).Pairwise fun c d => m.arena.orderOf c < m.arena.orderOf d
  /-- the list is the subtree -/
  subtree : ∀ y, y ∈ destroyed ↔ m.arena.Under id y
  once : destroyed.Nodup
  last : destroyed.getLast? = some id
  present : ∀ y ∈ destroyed, ∃ i, m.arena.get? y = some i
  gone : ∀ y ∈ destroyed, m'.arena.get? y = none
  unprovided : ∀ y ∈ destroyed, m'.products.get? y = none
  others : ∀ y ∉ destroyed, above ≠ some y →
    (m'.arena.get? y).map Instance.forgetName = (m.arena.get? y).map Instance.forgetName
  father : ∀ f, above = some f → ∃ i j, m.arena.get? f = some i ∧ m'.arena.get? f = some j ∧
    Loses i.children j.children id ∧
    j.forgetName = { i with children := j.children }.forgetName
  roots : ∀ f, above = some f → m'.arena.roots = m.arena.roots
  rootLost : above = none → Loses m.arena.roots m'.arena.roots id
  products : ∀ y ∉ destroyed, m'.products.get? y = m.products.get? y
  types : m'.types = m.types
  changes : m'.changes = m.changes

/-- The list of roots loses the top of the subtree, and nothing if that is no root. -/
theorem roots_removeSubtree (h : m.Coherent) (id : InstanceId) (father : Option InstanceId) :
    (m.removeSubtree id father).2.arena.roots = m.arena.roots.filter (· ≠ id) := by
  rw [arena_removeSubtree, Arena.roots_prune h.forest]
  refine List.filter_congr fun r hr => ?_
  rw [decide_eq_decide, h.forest.mem_postorder]
  refine not_congr ?_
  constructor
  · exact fun hu => (hu.eq_of_root h.forest hr).symm
  · rintro rfl
    exact .self

/-- **Removing a subtree** removes it and nothing else. -/
theorem removal_removeSubtree (h : m.Coherent) (hi : m.arena.get? id = some i) :
    m.Removal (m.removeSubtree id i.father).2 id i.father (m.removeSubtree id i.father).1 := by
  have p := m.pruned_removeSubtree h id i.father
  have hpost : m.arena.Postorder id (m.removeSubtree id i.father).1 :=
    h.forest.postorder_postorder id
  have hroots := roots_removeSubtree h id i.father
  have hkept := fun {y} (hy : y ∉ (m.removeSubtree id i.father).1) =>
    p.kept fun hu => hy (hpost.mem_iff.mpr hu)
  exact {
    postorder := hpost
    sorted := h.forest.childrenOf_sorted
    subtree := fun y => hpost.mem_iff
    once := hpost.nodup h.forest
    last := hpost.getLast?_eq
    present := fun y hy => (hpost.mem_iff.mp hy).present h.forest hi
    gone := fun y hy => p.gone (hpost.mem_iff.mp hy)
    unprovided := fun y hy => Association.get?_foldl_erase_of_mem (Or.inl hy)
    others := by
      intro y hy hf
      rw [hkept hy, if_neg hf]
    father := by
      intro f hf
      obtain ⟨k, hk, hmem⟩ := h.forest.father hi hf
      have hunder : ¬m.arena.Under id f :=
        Arena.Under.not_of_child h.forest ((h.forest.mem_childrenOf hi).mpr hf)
      refine ⟨k, k.withoutChild id, hk, ?_, loses_filter (h.forest.children_nodup hk) hmem, rfl⟩
      rw [p.forth hunder hk, if_pos hf]
    roots := by
      intro f hf
      rw [hroots]
      refine InstanceId.filter_ne_of_not_mem fun hr => ?_
      obtain ⟨k, hk, hnone⟩ := h.forest.root.mp hr
      rw [hi] at hk
      cases hk
      rw [hf] at hnone
      cases hnone
    rootLost := by
      intro hf
      rw [hroots]
      exact loses_filter h.forest.roots_nodup (h.forest.root.mpr ⟨i, hi, hf⟩)
    products := fun y hy => Association.get?_foldl_erase _ _ hy
    types := rfl
    changes := rfl }

end Model

/-! ## Remembered names aside -/

namespace Arena.OnlyMemos

variable {a b : Arena β}

theorem childrenOf_eq (h : a.OnlyMemos b) (y : InstanceId) : b.childrenOf y = a.childrenOf y :=
  congrArg (·.getD []) (h.map_eq (·.children) (fun _ => rfl) y)

theorem symm (h : a.OnlyMemos b) (hstored : a.Stored) : b.OnlyMemos a :=
  ⟨fun _ => hstored, h.roots.symm, h.lastOrder.symm, fun y => (h.same y).symm⟩

end Arena.OnlyMemos

/-- A removal after names were remembered is one from before. -/
theorem Model.Removal.of_remembering {destroyed : List InstanceId} {above : Option InstanceId}
    (hm : m.Coherent) (h : (m.remembering x).Removal m' id above destroyed) :
    m.Removal m' id above destroyed := by
  have only := Arena.onlyMemos_describe (a := m.arena) x
  have back := only.symm hm.stored
  have hpost := h.postorder.congr fun y => (only.childrenOf_eq y).symm
  exact {
    postorder := hpost
    sorted := hm.forest.childrenOf_sorted
    subtree := fun y => hpost.mem_iff
    once := h.once
    last := h.last
    present := by
      intro y hy
      obtain ⟨j, hj⟩ := h.present y hy
      obtain ⟨i, hi, -⟩ := only.back hj
      exact ⟨i, hi⟩
    gone := h.gone
    unprovided := h.unprovided
    others := fun y hy hf => (h.others y hy hf).trans (only.same y)
    father := by
      intro f hf
      obtain ⟨j, k, hj, hk, hlost, hsame⟩ := h.father f hf
      obtain ⟨i, hi, hij⟩ := only.back hj
      refine ⟨i, k, hi, hk, ?_, ?_⟩
      · rwa [← Instance.eq_of_forgetName hij (·.children) fun _ => rfl]
      · exact hsame.trans (congrArg (fun i : Instance β => { i with children := k.children }) hij)
    roots := fun f hf => (h.roots f hf).trans only.roots
    rootLost := by
      intro hf
      have hlost := h.rootLost hf
      rwa [show (m.remembering x).arena.roots = m.arena.roots from only.roots] at hlost
    products := h.products
    types := h.types
    changes := h.changes }

/-- **Nothing but remembered names differs** between two worlds. -/
def World.Remembers (w w' : World β σ) : Prop :=
  ∃ arena, w.model.arena.OnlyMemos arena ∧ w' = { w with model := { w.model with arena } }

theorem World.Remembers.refl (w : World β σ) : w.Remembers w := ⟨_, .refl _, rfl⟩

/-! ## What the rules say -/

/-- An action comes to what it comes to. -/
theorem Action.always_outcome {α : Type} (x : Action β σ α) (w : World β σ) :
    x.Always w (fun a w' => x.outcome w = some (.ok a, w'))
      fun err w' => x.outcome w = some (.error err, w') := by
  intro r w' hr
  cases r <;> exact hr

/-- **How the father's rules are asked about a removal**, and the world in which they have finished:
an instance that is no element is not asked about; the chain of the father rejects the removal or
fails; or it passes, and the instance is still there or was taken away meanwhile. -/
inductive Engine.Hearing (e : Engine β σ) (id : InstanceId) (i : Instance β) (w : World β σ) :
    Except ModelError (Option Rejection) → World β σ → Prop
  | unasked : i.father = none ∨ i.element = false → Hearing e id i w (.ok none) w
  | passed {f : InstanceId} {n : Nat} {w' : World β σ} :
      i.father = some f → i.element = true →
      (e.callRules f Reason.removeElement.symbol none (.ref id)).outcome w =
        some (.ok (.passed n), w') →
      (∃ j, w'.model.arena.get? id = some j) → Hearing e id i w (.ok none) w'
  | rejected {f : InstanceId} {rejection : Rejection} {w' : World β σ} :
      i.father = some f → i.element = true →
      (e.callRules f Reason.removeElement.symbol none (.ref id)).outcome w =
        some (.ok (.rejected rejection), w') →
      Hearing e id i w (.ok (some rejection)) w'
  | failed {f : InstanceId} {err : ModelError} {w' : World β σ} :
      i.father = some f → i.element = true →
      (e.callRules f Reason.removeElement.symbol none (.ref id)).outcome w = some (.error err, w') →
      Hearing e id i w (.error err) w'
  | lost {f : InstanceId} {n : Nat} {w' : World β σ} :
      i.father = some f → i.element = true →
      (e.callRules f Reason.removeElement.symbol none (.ref id)).outcome w =
        some (.ok (.passed n), w') →
      w'.model.arena.get? id = none → Hearing e id i w (.error (Arena.destroyedError id)) w'

/-- **An instance that can be removed**: it is live, nothing under it is busy, nor its father. -/
structure Model.Removable (m : Model β) (id : InstanceId) (i : Instance β) : Prop where
  there : m.arena.get? id = some i
  live : i.state = .live
  idle : ∀ y, m.arena.Under id y → m.busyOf y = 0
  fatherIdle : ∀ f, i.father = some f → m.busyOf f = 0

/-- **How a removal ends.**

* It destroys the subtree as it stands when the rules have finished.
* The rules reject it, and the world is the one in which they have finished.
* The rules fail or take the instance away, and the world is the one in which they have finished.
* The instance cannot be removed; no rules are asked and no instance is touched. -/
inductive Engine.RemovalEnds (e : Engine β σ) (id : InstanceId) (w : World β σ) :
    Except ModelError RemoveOutcome → World β σ → Prop
  | removed {i : Instance β} {w₁ w' : World β σ} {destroyed : List InstanceId} :
      w.model.Removable id i → e.Hearing id i w (.ok none) w₁ →
      w₁.model.Removal w'.model id i.father destroyed → w' = { w₁ with model := w'.model } →
      RemovalEnds e id w (.ok (.removed destroyed)) w'
  | vetoed {i : Instance β} {w' : World β σ} {rejection : Rejection} :
      w.model.Removable id i → e.Hearing id i w (.ok (some rejection)) w' →
      RemovalEnds e id w (.ok (.vetoed rejection)) w'
  | failed {i : Instance β} {w' : World β σ} {err : ModelError} :
      w.model.Removable id i → e.Hearing id i w (.error err) w' →
      RemovalEnds e id w (.error err) w'
  | refused {w' : World β σ} {err : ModelError} :
      (∀ i, ¬w.model.Removable id i) → w.Remembers w' → RemovalEnds e id w (.error err) w'

/-! ## The checks -/

/-- An idle instance passes, and others are refused by their names. -/
theorem Action.ensureNotBusy_always (id : InstanceId) (operation : String) :
    (ensureNotBusy id operation : Action β σ Unit).Always w
      (fun _ w' => w' = w ∧ w.model.busyOf id = 0)
      fun _ w' => (w.model.arena.get? id = none ∨ w.model.busyOf id ≠ 0) ∧ w.Remembers w' := by
  rw [ensureNotBusy, always_bind, always_find]
  refine ⟨fun i hi => ?_, fun hnone => ⟨Or.inl hnone, .refl w⟩⟩
  rw [Model.busyOf_eq hi]
  by_cases hbusy : i.isBusy = true
  · rw [if_pos hbusy, always_bind, always_describe, always_throw]
    have hne : i.busy ≠ 0 := Nat.pos_iff_ne_zero.mp (of_decide_eq_true hbusy)
    exact ⟨Or.inr hne, _, Arena.onlyMemos_describe id, rfl⟩
  · rw [if_neg hbusy]
    refine (always_pure _).mpr ⟨rfl, ?_⟩
    simpa [Instance.isBusy] using hbusy

theorem Action.ensureNoneBusy_always (operation : String) (ids : List InstanceId) :
    (ensureNoneBusy operation ids : Action β σ Unit).Always w
      (fun _ w' => w' = w ∧ ∀ y ∈ ids, w.model.busyOf y = 0)
      fun _ w' => (∃ y ∈ ids, w.model.arena.get? y = none ∨ w.model.busyOf y ≠ 0) ∧
        w.Remembers w' := by
  induction ids with
  | nil => exact (always_pure _).mpr ⟨rfl, fun _ hy => nomatch hy⟩
  | cons id ids ih =>
    rw [ensureNoneBusy, always_bind]
    refine (ensureNotBusy_always id operation).mono ?_ ?_
    · rintro _ w' ⟨rfl, hidle⟩
      refine ih.mono ?_ ?_
      · rintro _ w'' ⟨rfl, hrest⟩
        refine ⟨rfl, fun y hy => ?_⟩
        rcases List.mem_cons.mp hy with rfl | hy
        · exact hidle
        · exact hrest y hy
      · rintro _ w'' ⟨⟨y, hy, hrefused⟩, hsame⟩
        exact ⟨⟨y, List.mem_cons_of_mem id hy, hrefused⟩, hsame⟩
    · rintro _ w' ⟨hrefused, hsame⟩
      exact ⟨⟨id, List.mem_cons_self, hrefused⟩, hsame⟩

namespace Engine

variable (e : Engine β σ)

/-- Asking the rules is hearing them. -/
theorem askRemoval_always (id : InstanceId) (i : Instance β) (w : World β σ) :
    (e.askRemoval id i).Always w (fun answer w' => e.Hearing id i w (.ok answer) w')
      fun err w' => e.Hearing id i w (.error err) w' := by
  unfold askRemoval
  cases hf : i.father with
  | none => exact (always_pure _).mpr (.unasked (Or.inl hf))
  | some f =>
    dsimp only
    cases helement : i.element with
    | false => exact (always_pure _).mpr (.unasked (Or.inr helement))
    | true =>
      rw [if_neg (by simp), always_bind]
      refine (always_outcome _ w).mono ?_ fun err w' hr => .failed hf helement hr
      intro outcome w' hr
      cases outcome with
      | rejected rejection => exact (always_pure _).mpr (.rejected hf helement hr)
      | passed n =>
        dsimp only
        rw [always_bind, always_find]
        refine ⟨fun j hj => ?_, fun hnone => .lost hf helement hr hnone⟩
        exact (always_pure _).mpr (.passed hf helement hr ⟨j, hj⟩)

/-- **The checks of a removal**: an instance that can be removed is up to the rules, and others are
refused. -/
theorem remove_always (hw : w.model.arena.Forest) (id : InstanceId)
    {ok : RemoveOutcome → World β σ → Prop} {err : ModelError → World β σ → Prop}
    (hgranted : ∀ i, w.model.Removable id i → (e.removeIfGranted id i).Always w ok err)
    (hrefused : ∀ r w', (∀ i, ¬w.model.Removable id i) → w.Remembers w' → err r w') :
    (e.remove id).Always w ok err := by
  rw [remove, always_bind, always_find]
  refine ⟨fun i hi => ?_, fun hnone => ?_⟩
  rotate_left
  · refine hrefused _ w (fun i hr => ?_) (.refl w)
    rw [hr.there] at hnone
    cases hnone
  have honly : ∀ {j}, w.model.Removable id j → j = i := fun hr => by
    have hthere := hr.there
    rw [hi] at hthere
    exact (Option.some.inj hthere).symm
  dsimp only
  split
  · rename_i hstate
    rw [always_bind, always_describe, always_bind, always_throw]
    exact hrefused _ _ (fun j hr => hstate (honly hr ▸ hr.live))
      ⟨_, Arena.onlyMemos_describe id, rfl⟩
  rename_i hstate
  rw [always_bind, always_model, always_bind]
  refine (ensureNoneBusy_always "remove" (w.model.arena.preorder id)).mono ?_ ?_
  rotate_left
  · rintro r w' ⟨⟨y, hy, hbusy⟩, hsame⟩
    refine hrefused r w' (fun j hr => ?_) hsame
    obtain ⟨k, hk⟩ := (hw.mem_preorder.mp hy).present hw hi
    rw [hk] at hbusy
    exact (hbusy.resolve_left fun h => nomatch h) (hr.idle y (hw.mem_preorder.mp hy))
  rintro _ w' ⟨rfl, hidle⟩
  have hremovable : (∀ f, i.father = some f → w'.model.busyOf f = 0) → w'.model.Removable id i :=
    fun hfather => ⟨hi, Decidable.not_not.mp hstate,
      fun y hy => hidle y (hw.mem_preorder.mpr hy), hfather⟩
  cases hf : i.father with
  | none => exact hgranted i (hremovable fun f h => by rw [hf] at h; cases h)
  | some f =>
    dsimp only
    rw [always_bind]
    refine (ensureNotBusy_always f "remove a child of").mono ?_ ?_
    · rintro _ w'' ⟨rfl, hbusy⟩
      refine hgranted i (hremovable fun g hg => ?_)
      rw [hf] at hg
      cases hg
      exact hbusy
    · rintro r w'' ⟨hbusy, hsame⟩
      refine hrefused r w'' (fun j hr => ?_) hsame
      obtain rfl := honly hr
      obtain ⟨k, hk, -⟩ := hw.father hi hf
      rw [hk] at hbusy
      exact (hbusy.resolve_left fun h => nomatch h) (hr.fatherIdle f hf)

/-- **What is granted** is done to the world in which the rules have finished. -/
theorem removeIfGranted_always (hi : w.model.Removable id i)
    (hheard : ∀ w₁, e.Hearing id i w (.ok none) w₁ →
      (e.askRemoval id i).outcome w = some (.ok none, w₁) →
      w₁.model.Coherent ∧ ∃ j, w₁.model.arena.get? id = some j ∧ j.father = i.father) :
    (e.removeIfGranted id i).Always w (fun outcome w' => e.RemovalEnds id w (.ok outcome) w')
      fun err w' => e.RemovalEnds id w (.error err) w' := by
  rw [removeIfGranted, always_bind]
  refine (always_outcome _ w).mono ?_ ?_
  rotate_left
  · intro err w₁ hr
    exact .failed hi ((e.askRemoval_always id i w).of_error hr)
  intro answer w₁ hr
  have hearing := (e.askRemoval_always id i w).of_ok hr
  cases answer with
  | some rejection => exact (always_pure _).mpr (.vetoed hi hearing)
  | none =>
    obtain ⟨hcoherent, j, hj, hfather⟩ := hheard w₁ hearing hr
    -- The name is made for a message, so it is remembered before the subtree goes.
    obtain ⟨k, hk, hkj⟩ := (Arena.onlyMemos_describe (a := w₁.model.arena) id).forth hj
    have hkfather : k.father = i.father :=
      (Instance.eq_of_forgetName hkj (·.father) fun _ => rfl).trans hfather
    have hremoval := Model.removal_removeSubtree (careful_remembering hcoherent id).coherent hk
    rw [hkfather] at hremoval
    dsimp only
    rw [always_bind, always_describe, always_bind, always_model]
    dsimp only
    rw [always_bind, always_modifyModel, always_pure]
    exact .removed hi hearing (hremoval.of_remembering hcoherent) rfl

end Engine

/-! ## Every removal -/

/-- **After the rules have been heard**, the model is coherent, and the instance still has the
father that it had. -/
theorem Reachable.heard {pending : List Pending} (hw : Reachable pending w.model)
    (L : Language β σ) (allowance : Nat) (hi : w.model.arena.get? id = some i)
    (hr : ((L.engine allowance).askRemoval id i).outcome w = some (.ok none, w')) :
    w'.model.Coherent ∧ ∃ j, w'.model.arena.get? id = some j ∧ j.father = i.father := by
  obtain ⟨v, hv, hmodel⟩ := ((L.alike_watched allowance).askRemoval id i).exists_outcome hr
  have hleads := (L.lawful_watched allowance).askRemoval_leads (w := w.watching) hw hi
  obtain ⟨hreached, hthere⟩ := hleads.of_ok hv
  rw [← hmodel]
  exact ⟨hreached.sound.coherent, hthere rfl⟩

/-- **What a removal destroys**, in every state of every run of every language, whatever the rules
do that are asked: exactly the subtree as it stands when they have finished, children before their
father, and nothing at all if the removal is rejected or fails. -/
theorem Language.removal_ends (L : Language β σ) (allowance : Nat) {pending : List Pending}
    (hw : Reachable pending w.model) {r : Except ModelError RemoveOutcome}
    (hr : (perform L (allowance + 1) (.remove id)).outcome w = some (r, w')) :
    (L.engine allowance).RemovalEnds id w r w' := by
  have hends : ((L.engine allowance).remove id).Always w
      (fun outcome w' => (L.engine allowance).RemovalEnds id w (.ok outcome) w')
      fun err w' => (L.engine allowance).RemovalEnds id w (.error err) w' :=
    (L.engine allowance).remove_always hw.sound.coherent.forest id
      (fun i hi => Engine.removeIfGranted_always _ hi fun w₁ _ hasked =>
        hw.heard L allowance hi.there hasked)
      fun _ _ hnot hsame => .refused hnot hsame
  cases r with
  | ok outcome => exact hends.of_ok hr
  | error err => exact hends.of_error hr

/-- The removal of a cabinet destroys its two shelves before it.  The removal of one shelf is
granted by the rules of the cabinet, and then that of the other is rejected. -/
theorem Language.removal_ends_showroom :
    ∃ r w, (Body.exec (Showroom.language (σ := Unit)) 6 (Showroom.build (fun r => r) 2)).outcome
        { config := {}, host := () } = some (r, w) ∧ Reachable [] w.model ∧
      (∃ w', (perform (Showroom.language (σ := Unit)) 6 (.remove ⟨1, 0⟩)).outcome w =
          some (.ok (.removed [⟨2, 0⟩, ⟨3, 0⟩, ⟨1, 0⟩]), w') ∧
        ((Showroom.language (σ := Unit)).engine 5).RemovalEnds ⟨1, 0⟩ w
          (.ok (.removed [⟨2, 0⟩, ⟨3, 0⟩, ⟨1, 0⟩])) w') ∧
      ∃ w', (perform (Showroom.language (σ := Unit)) 6 (.remove ⟨2, 0⟩)).outcome w =
          some (.ok (.removed [⟨2, 0⟩]), w') ∧
        ((Showroom.language (σ := Unit)).engine 5).RemovalEnds ⟨2, 0⟩ w
          (.ok (.removed [⟨2, 0⟩])) w' ∧
        ∃ rejection w'', (perform (Showroom.language (σ := Unit)) 6 (.remove ⟨3, 0⟩)).outcome w' =
            some (.ok (.vetoed rejection), w'') ∧
          ((Showroom.language (σ := Unit)).engine 5).RemovalEnds ⟨3, 0⟩ w'
            (.ok (.vetoed rejection)) w'' := by
  have hrun : ((Body.exec (Showroom.language (σ := Unit)) 6 (Showroom.build (fun r => r) 2)).outcome
      { config := {}, host := () }).any (fun run =>
        ((perform (Showroom.language (σ := Unit)) 6 (.remove ⟨1, 0⟩)).outcome run.2).any
          (fun after => after.1.toOption == some (.removed [⟨2, 0⟩, ⟨3, 0⟩, ⟨1, 0⟩])) &&
        ((perform (Showroom.language (σ := Unit)) 6 (.remove ⟨2, 0⟩)).outcome run.2).any
          fun after => after.1.toOption == some (.removed [⟨2, 0⟩]) &&
            ((perform (Showroom.language (σ := Unit)) 6 (.remove ⟨3, 0⟩)).outcome after.2).any
              fun last => last.1.toOption.any (!·.isRemoved)) = true := by
    decide +kernel
  have hok : ∀ {r : Except ModelError RemoveOutcome} {outcome}, r.toOption = some outcome →
      r = .ok outcome := by
    intro r outcome h
    cases r with
    | ok o => exact congrArg _ (Option.some.inj h)
    | error err => cases h
  obtain ⟨⟨r, w⟩, hw, htest⟩ := (Option.any_eq_true _ _).mp hrun
  obtain ⟨hcabinet, hshelf⟩ := (Bool.and_eq_true _ _).mp htest
  have hstart : Reachable [] ({ config := {}, host := () } : World Showroom.Routine Unit).model :=
    .empty rfl rfl
  have hreach := hstart.after_exec hw
  obtain ⟨⟨r₁, w₁⟩, hr₁, htest₁⟩ := (Option.any_eq_true _ _).mp hcabinet
  obtain rfl := hok (beq_iff_eq.mp htest₁)
  obtain ⟨⟨r₂, w₂⟩, hr₂, htest₂⟩ := (Option.any_eq_true _ _).mp hshelf
  obtain ⟨htest₂, hlast⟩ := (Bool.and_eq_true _ _).mp htest₂
  obtain rfl := hok (beq_iff_eq.mp htest₂)
  obtain ⟨⟨r₃, w₃⟩, hr₃, htest₃⟩ := (Option.any_eq_true _ _).mp hlast
  obtain ⟨outcome, houtcome, hnot⟩ := (Option.any_eq_true _ _).mp htest₃
  obtain rfl := hok houtcome
  have hreach₂ := hreach.after_perform hr₂
  cases outcome with
  | removed destroyed => cases hnot
  | vetoed rejection =>
    exact ⟨r, w, hw, hreach, ⟨w₁, hr₁, Language.removal_ends _ 5 hreach hr₁⟩, w₂, hr₂,
      Language.removal_ends _ 5 hreach hr₂, rejection, w₃, hr₃,
      Language.removal_ends _ 5 hreach₂ hr₃⟩

end ProductModel
