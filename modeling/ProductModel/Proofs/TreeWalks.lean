import Mathlib.Algebra.GroupWithZero.Nat
import ProductModel.Proofs.Arena.WaysUp
import ProductModel.Proofs.Run.Counting
import ProductModel.Proofs.Run.Names
import ProductModel.Showroom

/-!
# Walks in the tree

Handles are places that are used again, and fathers and children are links between them that every
operation changes by hand.  Nothing in the links themselves keeps a walk from going round, and
nothing makes the ways up and the lists of children agree.

`Body.Sighted.walkable` says that every walk comes to its end at every moment at which a program can
look, and where: the four walks along father links, written without a bound, end where the bounded
ones do, and so does the listing of a subtree by a stack.  Subtrees are what leads up to their tops,
and those of the roots have each instance once, so that their lengths add up to the number of
instances that the arena keeps.
-/

namespace ProductModel

variable {β σ α : Type} {m : Model β}

/-- **A model whose tree can be walked**, upward and downward alike.  To be live is to be present in
the arena. -/
structure Model.Walkable (m : Model β) : Prop where
  /-- no way along father links goes on for ever -/
  ends : WellFounded m.arena.IsFather
  /-- the way up to a root ends, at the root above the instance -/
  root : ∀ {x i r}, m.arena.get? x = some i →
    (m.arena.Climbs (fun _ => true) x r ↔ r = m.arena.rootOf x)
  /-- a name by the name of the father is the dotted path -/
  name : ∀ {x i name}, m.arena.get? x = some i →
    (m.arena.Named x name ↔ name = m.arena.pathName x)
  /-- asking for a name ends with it, whatever is remembered on the way -/
  absoluteName : ∀ {x i}, m.arena.get? x = some i →
    ∃ a, m.arena.absoluteName x = .ok (m.arena.pathName x, a)
  /-- a place in space by the place of the father is the frame -/
  frame : ∀ {x i frame}, m.arena.get? x = some i →
    (m.arena.Framed x frame ↔ frame = m.arena.frameOf x)
  /-- a pick climbs past what passes it on to its father, and ends at its target -/
  pick : ∀ {x i target}, m.arena.get? x = some i →
    (m.arena.Climbs (·.flags.hierSelectable) x target ↔ target = m.arena.pickTarget x)
  /-- a subtree is the instance, and then the subtrees of its children -/
  subtree : ∀ x, m.arena.preorder x = x :: (m.arena.childrenOf x).flatMap m.arena.preorder
  /-- children are listed in order of creation -/
  childrenInOrder : ∀ x, ((m.arena.childrenOf x).map m.arena.orderOf).Pairwise (· < ·)
  /-- the listing by a stack ends, with the subtree -/
  stack : ∀ {x ids}, m.arena.Unwinds [x] ids ↔ ids = m.arena.preorder x
  /-- no instance is twice in a subtree -/
  subtreeOnce : ∀ x, (m.arena.preorder x).Nodup
  /-- in a subtree is what leads up to its top along father links -/
  upward : ∀ {x y}, y ∈ m.arena.preorder x ↔
    Relation.ReflTransGen (fun y f => m.arena.IsFather f y) y x
  /-- the root above an instance is the only root whose subtree has it -/
  onlyRoot : ∀ {y i r}, m.arena.get? y = some i →
    (r ∈ m.arena.roots ∧ y ∈ m.arena.preorder r ↔ r = m.arena.rootOf y)
  /-- the subtrees of the roots have the live instances -/
  trees : ∀ {y}, y ∈ m.arena.roots.flatMap m.arena.preorder ↔ m.arena.contains y = true
  /-- no instance is twice in them -/
  treesOnce : (m.arena.roots.flatMap m.arena.preorder).Nodup
  /-- their lengths add up to the number of instances -/
  count : (m.arena.roots.map fun r => (m.arena.preorder r).length).sum = m.arena.size

/-- The subtrees of the roots have as many instances as the arena. -/
theorem Arena.Counted.sum_trees {a : Arena β} (h : a.Counted) (ha : a.Forest) :
    (a.roots.map fun r => (a.preorder r).length).sum = a.size := by
  obtain ⟨ids, hnodup, hmem, hlength⟩ := h.counted
  have hperm : ids.Perm (a.roots.flatMap a.preorder) := by
    refine (List.perm_ext_iff_of_nodup hnodup ha.nodup_trees).mpr fun y => ?_
    rw [hmem, ha.mem_trees, contains_eq_true_iff]
  rw [← hlength, hperm.length_eq, List.length_flatMap]

theorem Arena.Forest.toWalkable (h : m.arena.Forest) (hmemos : m.arena.MemosRight)
    (hcount : m.arena.Counted) : m.Walkable where
  ends := h.wellFounded
  root hi := ⟨fun hr => hr.unique (h.climbs_rootOf hi), fun hr => hr ▸ h.climbs_rootOf hi⟩
  name hi := ⟨fun hn => hn.unique (Arena.named_pathName h hi),
    fun hn => hn ▸ Arena.named_pathName h hi⟩
  absoluteName hi := Arena.absoluteName_eq_pathName h hmemos hi
  frame hi := ⟨fun hf => hf.unique (h.framed_frameOf hi), fun hf => hf ▸ h.framed_frameOf hi⟩
  pick hi := ⟨fun ht => ht.unique (h.climbs_pickTarget hi), fun ht => ht ▸ h.climbs_pickTarget hi⟩
  subtree := h.preorder_eq
  childrenInOrder x := List.pairwise_map.mpr (h.childrenOf_sorted x)
  stack := by
    intro x ids
    rw [h.unwinds_iff, List.flatMap_singleton]
  subtreeOnce x := (h.preorder_preorder x).nodup h
  upward := h.mem_preorder_iff
  onlyRoot := h.mem_preorder_root_iff
  trees := h.mem_trees.trans Arena.contains_eq_true_iff.symm
  treesOnce := h.nodup_trees
  count := hcount.sum_trees h

/-- **The tree can be walked whenever a program can look**, in every run from nothing. -/
theorem Body.Sighted.walkable {L : Language β σ} {allowance : Nat} {p : Body β σ α}
    {config : Config} {host : σ} {s : Sight β} (h : p.Sighted L allowance config host s) :
    s.model.Walkable := by
  obtain ⟨pending, hreach, -⟩ := h.reachable
  exact hreach.sound.coherent.forest.toWalkable hreach.wellNamed.memos h.counted

/-- Building a showroom with one shelf comes past a model in which a shelf leads up to the
environment, two steps away. -/
theorem Body.Sighted.walkable_showroom :
    ∃ s, (Showroom.build id 1).Sighted (Showroom.language (σ := Unit)) 6 {} () s ∧
      s.model.arena.preorder ⟨0, 0⟩ = [⟨0, 0⟩, ⟨1, 0⟩, ⟨2, 0⟩] ∧
      s.model.arena.rootOf ⟨2, 0⟩ = ⟨0, 0⟩ ∧ s.model.arena.size = 3 ∧ s.model.Walkable := by
  obtain ⟨s, hsighted, htest⟩ := (Showroom.build id 1).exists_sighted
    (Showroom.language (σ := Unit)) 6 {} ()
    (fun s => s.model.arena.preorder ⟨0, 0⟩ == [⟨0, 0⟩, ⟨1, 0⟩, ⟨2, 0⟩] &&
      s.model.arena.rootOf ⟨2, 0⟩ == ⟨0, 0⟩ && s.model.arena.size == 3) (by decide +kernel)
  simp only [Bool.and_eq_true, beq_iff_eq] at htest
  exact ⟨s, hsighted, htest.1.1, htest.1.2, htest.2, Body.Sighted.walkable hsighted⟩

end ProductModel
