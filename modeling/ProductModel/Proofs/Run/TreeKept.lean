import ProductModel.Proofs.Run.Considerate

/-!
# Bodies that leave the tree as it is

The tree of a model is made of the roots and of the seat of each instance: its father, its children,
its name, and whether it is an element (`Model.tree`).  Few operations change it: creation, removal,
renaming, and those that make elements and end that.  A body that performs none of these leaves the
tree as it is, whatever else it does, be it by further bodies that run for it
(`Language.considerate_treeKeeping`).
-/

namespace ProductModel

open ProductModel.Action

variable {β σ α : Type} {m m' m'' : Model β} {w w' : World β σ} {id x : InstanceId}
  {i : Instance β}

/-! ## The tree -/

/-- **The seat of an instance in the tree.** -/
structure Seat where
  father : Option InstanceId
  children : List InstanceId
  localName : String
  element : Bool

/-- The seat of an instance. -/
def Instance.seat (i : Instance β) : Seat := ⟨i.father, i.children, i.localName, i.element⟩

/-- **A tree**: its roots, and the seats of its instances. -/
@[ext]
structure Tree where
  roots : List InstanceId
  seat : InstanceId → Option Seat

/-- **The tree of a model.** -/
def Model.tree (m : Model β) : Tree := ⟨m.arena.roots, fun y => (m.arena.get? y).map Instance.seat⟩

theorem Model.seat_tree (m : Model β) (y : InstanceId) :
    m.tree.seat y = (m.arena.get? y).map Instance.seat := rfl

/-- A part of the seat of an instance. -/
theorem Model.map_seat (h : m'.tree = m.tree) {γ : Type} (part : Seat → γ) (y : InstanceId) :
    (m'.arena.get? y).map (part ∘ Instance.seat) = (m.arena.get? y).map (part ∘ Instance.seat) := by
  have hseat : (m'.arena.get? y).map Instance.seat = (m.arena.get? y).map Instance.seat :=
    congrFun (congrArg Tree.seat h) y
  rw [← Option.map_map, hseat, Option.map_map]

theorem Model.childrenOf_of_tree (h : m'.tree = m.tree) (y : InstanceId) :
    m'.arena.childrenOf y = m.arena.childrenOf y :=
  congrArg (·.getD []) (map_seat h Seat.children y)

theorem Model.localName?_of_tree (h : m'.tree = m.tree) (y : InstanceId) :
    m'.arena.localName? y = m.arena.localName? y :=
  map_seat h Seat.localName y

/-- **The models have the same tree.** -/
def Model.SameTree (m m' : Model β) : Prop := m'.tree = m.tree

/-- What differs in no seat has the same tree. -/
theorem Model.tree_eq (hroots : m'.arena.roots = m.arena.roots)
    (hseat : ∀ y, (m'.arena.get? y).map Instance.seat = (m.arena.get? y).map Instance.seat) :
    m'.tree = m.tree := by
  rw [tree, tree, hroots, funext hseat]

theorem Model.tree_modify {f : Instance β → Instance β}
    (hf : ∀ i, m.arena.get? id = some i → (f i).seat = i.seat) : (m.modify id f).tree = m.tree :=
  tree_eq (Arena.roots_modify f) (Arena.map_get?_modify _ hf)

theorem Model.undisturbed_sameTree : Undisturbed (SameTree (β := β)) where
  refl _ := rfl
  trans h h' := Eq.trans h' h
  remembering _ _ h := tree_eq h.roots fun y => h.map_eq Instance.seat (fun _ => rfl) y
  changing _ _ := rfl

/-- The seat of an instance belongs to its lasting part. -/
theorem Model.coarse_sameTree : Coarse (SameTree (β := β)) where
  toUndisturbed := undisturbed_sameTree
  amending _ _ _ hf := tree_modify fun i _ =>
    Instance.eq_of_lasting (hf i) Instance.seat fun _ => rfl
  products _ _ := rfl

/-- A change that leaves the seat of an instance alone. -/
theorem allows_sameTree {f : Instance β → Instance β} (hf : ∀ i, (f i).seat = i.seat) :
    Allows (OfModels Model.SameTree : World β σ → World β σ → Prop) id f :=
  fun _ _ _ => Model.tree_modify fun i _ => hf i

/-! ## Operations that leave the tree as it is -/

/-- **Operations that leave the tree as it is.** -/
def Op.leavesTree : Op β → Bool
  | .instantiate _ _ _ _ | .addElement _ _ _ | .remove _ => false
  | .rename _ _ | .beElement _ | .unBeElement _ => false
  | _ => true

/-- **The language whose bodies leave the tree as it is**: none of them creates, removes or renames
an instance, nor makes an instance an element, nor ends that. -/
def Language.treeKeeping (L : Language β σ) (refusal : ModelError) : Language β σ :=
  L.guarded (fun _ op => op.leavesTree) refusal

/-- **All other operations leave the tree as it is**, if the bodies do that they run. -/
theorem Engine.Considerate.sameTree_step {e : Engine β σ}
    (h : e.Considerate (OfModels Model.SameTree)) {op : Op β} (hop : op.leavesTree = true) :
    Respects (OfModels Model.SameTree) (e.step op) := by
  have hM := Model.coarse_sameTree (β := β)
  have hR := hM.tolerant (σ := σ)
  cases op with
  | register d => exact hR.changeTypes (fun _ _ => rfl) (·.register d)
  | redefine typeName d => exact hR.changeTypes (fun _ _ => rfl) (·.redefine typeName d)
  | sweep kind root =>
    exact h.sweep hR (fun _ => allows_sameTree fun _ => rfl) (fun _ => allows_sameTree fun _ => rfl)
      (fun _ _ => allows_sameTree fun _ => rfl) kind root
  | _ => first | exact h.step_of_isPlain hM rfl | cases hop

/-! ## However deep -/

variable {refusal : ModelError}

theorem considerate_of_treeKeeping {L : Language β σ} {allowance : Nat}
    (h : ∀ op : Op β, op.leavesTree = true →
      Respects (OfModels Model.SameTree) (perform (L.treeKeeping refusal) allowance op)) :
    ((L.treeKeeping refusal).engine allowance).Considerate (OfModels Model.SameTree) :=
  Language.considerate_guarded Model.undisturbed_sameTree.tolerant fun op hop => (h op hop).always _

/-- **What bodies that leave the tree as it is can perform** leaves it as it is, however deep bodies
are nested. -/
theorem sameTree_perform_treeKeeping (L : Language β σ) (allowance : Nat) {op : Op β}
    (hop : op.leavesTree = true) :
    Respects (OfModels Model.SameTree) (perform (L.treeKeeping refusal) allowance op) := by
  induction allowance generalizing op with
  | zero => exact ⟨fun _ => always_exhausted⟩
  | succ allowance ih => exact (considerate_of_treeKeeping fun op hop => ih hop).sameTree_step hop

/-- **All bodies of such a language leave the tree as it is.** -/
theorem Language.considerate_treeKeeping (L : Language β σ) (allowance : Nat) :
    ((L.treeKeeping refusal).engine allowance).Considerate (OfModels Model.SameTree) :=
  considerate_of_treeKeeping fun _ hop => sameTree_perform_treeKeeping L allowance hop

end ProductModel
