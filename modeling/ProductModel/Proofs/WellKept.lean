import ProductModel.Proofs.Run.Bodies
import ProductModel.Showroom

/-!
# The tree and the product data are well kept

Children, fathers, roots and product data are indexes that every operation updates by hand, with
bodies running between the updates.  `Body.Sighted.wellKept` says that they agree at every moment at
which a program can look: for all programs, all languages and all bodies, at any depth of nesting,
and whether the steps before succeeded or failed.
-/

namespace ProductModel

variable {β σ α : Type} {m : Model β}

/-- **A model whose indexes agree.**  To be live is to be present in the arena. -/
structure Model.WellKept (m : Model β) : Prop where
  /-- a child is live and has the instance as its father -/
  child : ∀ {x i c}, m.arena.get? x = some i → c ∈ i.children →
    ∃ j, m.arena.get? c = some j ∧ j.father = some x
  /-- a child occurs once -/
  childOnce : ∀ {x i}, m.arena.get? x = some i → i.children.Nodup
  /-- a live instance with a father occurs among the children of the father, which is live -/
  father : ∀ {x i f}, m.arena.get? x = some i → i.father = some f →
    ∃ j, m.arena.get? f = some j ∧ x ∈ j.children
  /-- the roots are the live instances without a father -/
  root : ∀ {x}, x ∈ m.arena.roots ↔ ∃ i, m.arena.get? x = some i ∧ i.father = none
  /-- a root occurs once -/
  rootOnce : m.arena.roots.Nodup
  /-- lists of children are in order of creation -/
  childrenInOrder : ∀ {x i}, m.arena.get? x = some i →
    (i.children.map m.arena.orderOf).Pairwise (· < ·)
  /-- the roots are in order of creation -/
  rootsInOrder : (m.arena.roots.map m.arena.orderOf).Pairwise (· < ·)
  /-- a father was created before its children -/
  fatherFirst : ∀ {x i f j}, m.arena.get? x = some i → i.father = some f →
    m.arena.get? f = some j → j.order < i.order
  /-- product data are kept for live instances -/
  products : ∀ y ∈ m.products.keys, ∃ i, m.arena.get? y = some i
  /-- the program of a live instance is a live instance -/
  program : ∀ {x i}, m.arena.get? x = some i →
    ∃ p j, m.programOf x = .ok p ∧ m.arena.get? p = some j

/-- The program of a present instance is present: one that is gone is replaced by the root. -/
theorem Model.exists_programOf (h : m.arena.Forest) {x : InstanceId} {i : Instance β}
    (hi : m.arena.get? x = some i) :
    ∃ p j, m.programOf x = .ok p ∧ m.arena.get? p = some j := by
  obtain ⟨r, hr⟩ := h.present_rootOf hi
  have hfind : m.arena.find x = .ok i := by
    unfold Arena.find
    rw [hi]
  unfold programOf
  rw [hfind]
  cases hp : i.program with
  | none => exact ⟨_, r, by simp only [bind, Except.bind, hp]; rfl, hr⟩
  | some p =>
    cases hthere : m.arena.get? p with
    | none =>
      have hnot : m.arena.contains p = false := by rw [Arena.contains, hthere]; rfl
      exact ⟨m.arena.rootOf x, r, by simp [bind, Except.bind, hp, hnot, pure, Except.pure], hr⟩
    | some j =>
      have hyes : m.arena.contains p = true := Arena.contains_eq_true_iff.mpr ⟨j, hthere⟩
      exact ⟨p, j, by simp [bind, Except.bind, hp, hyes, pure, Except.pure], hthere⟩

theorem Model.Coherent.toWellKept (h : m.Coherent) : m.WellKept where
  child := h.forest.child
  childOnce := h.forest.children_nodup
  father := h.forest.father
  root := h.forest.root
  rootOnce := h.forest.roots_nodup
  childrenInOrder hi := List.pairwise_map.mpr (h.forest.childrenSorted hi)
  rootsInOrder := List.pairwise_map.mpr h.forest.rootsSorted
  fatherFirst := h.forest.fatherFirst
  products := h.products
  program hi := m.exists_programOf h.forest hi

/-- **Whatever a program can look at is well kept**, in every run from nothing. -/
theorem Body.Sighted.wellKept {L : Language β σ} {allowance : Nat} {p : Body β σ α}
    {config : Config} {host : σ} {s : Sight β} (h : p.Sighted L allowance config host s) :
    s.model.WellKept := by
  obtain ⟨pending, hreach, -⟩ := h.reachable
  exact hreach.sound.coherent.toWellKept

/-- Building a showroom with one shelf comes past a model with a cabinet in the environment and a
shelf in the cabinet. -/
theorem Body.Sighted.wellKept_showroom :
    ∃ s, (Showroom.build id 1).Sighted (Showroom.language (σ := Unit)) 6 {} () s ∧
      s.model.arena.childrenOf ⟨0, 0⟩ = [⟨1, 0⟩] ∧ s.model.arena.childrenOf ⟨1, 0⟩ = [⟨2, 0⟩] ∧
      s.model.products.keys = [⟨0, 0⟩] ∧ s.model.WellKept := by
  obtain ⟨s, hsighted, htest⟩ := (Showroom.build id 1).exists_sighted
    (Showroom.language (σ := Unit)) 6 {} ()
    (fun s => s.model.arena.childrenOf ⟨0, 0⟩ == [⟨1, 0⟩] &&
      s.model.arena.childrenOf ⟨1, 0⟩ == [⟨2, 0⟩] && s.model.products.keys == [⟨0, 0⟩])
    (by decide +kernel)
  simp only [Bool.and_eq_true, beq_iff_eq] at htest
  exact ⟨s, hsighted, htest.1.1, htest.1.2, htest.2, Body.Sighted.wellKept hsighted⟩

end ProductModel
