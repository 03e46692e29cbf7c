import ProductModel.Proofs.FailedCreation
import ProductModel.Proofs.Run.TreeKept

/-!
# How adding an element ends

Elements are added in two steps.  The element is made, if the father's rules do not refuse its type
(`Engine.makeElement`), and then they see the element and can keep it from being one
(`Engine.confirmElement`).  While this goes on, rules and initializers may do what they like, except
to change the tree themselves (`Language.treeKeeping`).

`Language.element_added` says what has become of the tree in each of the ways out.  An element that
is accepted is the last child of its father, under the first free element name; one that is demoted
is the last child and no element; a type that is refused leaves the tree as it was.  An error before
the element is confirmed leaves the tree as it was, too: a new instance whose initializer fails is
discarded.

An error of the rules that confirm the element does not.  It is passed on at once, and the element
that was not confirmed stays among the children of its father, as an element.  Here the rejection of
these rules would have demoted it.

## Design

The tree is one object (`Model.tree`), and to have a child more is a function of trees
(`Tree.adding`).  So what rules and initializers leave alone is carried along by rewriting, and what
is discarded after a failed initializer is what had been added.
-/

namespace ProductModel

open ProductModel.Action

variable {β σ : Type} {m m' m₁ m₂ : Model β} {w w' : World β σ} {father c x : InstanceId}
  {i : Instance β} {s : Seat} {name typeName : String} {args : List Value}

/-! ## A child more -/

namespace Seat

/-- The seat with one child more, the last one. -/
def withChild (s : Seat) (c : InstanceId) : Seat := { s with children := s.children ++ [c] }

/-- The seat without a child. -/
def withoutChild (s : Seat) (c : InstanceId) : Seat :=
  { s with children := s.children.filter (· ≠ c) }

theorem withoutChild_of_not_mem (h : c ∉ s.children) : s.withoutChild c = s := by
  rw [withoutChild, InstanceId.filter_ne_of_not_mem h]

/-- A child that comes and goes. -/
theorem withoutChild_withChild (h : c ∉ s.children) : (s.withChild c).withoutChild c = s := by
  have hfilter : (s.children ++ [c]).filter (· ≠ c) = s.children := by
    rw [List.filter_append, InstanceId.filter_ne_of_not_mem h]
    simp
  rw [withChild, withoutChild, hfilter]

end Seat

namespace Tree

variable {t : Tree} {y : InstanceId}

/-- **The tree with a new seat**, that of the last child of a father. -/
def adding (t : Tree) (father c : InstanceId) (s : Seat) : Tree where
  roots := t.roots
  seat y :=
    if y = c then some s
    else if y = father then (t.seat y).map (·.withChild c)
    else t.seat y

theorem seat_adding_self : (t.adding father c s).seat c = some s := if_pos rfl

theorem seat_adding_of_ne (h : y ≠ c) : (t.adding father c s).seat y =
    if y = father then (t.seat y).map (·.withChild c) else t.seat y :=
  if_neg h

end Tree

theorem Model.exists_of_seat (h : m.tree.seat x = some s) :
    ∃ i, m.arena.get? x = some i ∧ i.seat = s :=
  Option.map_eq_some_iff.mp h

/-- A new instance is the last child of its father. -/
theorem Placed.tree_eq (h : Placed m c i m') (hfather : i.father = some father) :
    m'.tree = m.tree.adding father c i.seat := by
  refine Tree.ext ?_ (funext fun y => ?_)
  · show m'.arena.roots = m.arena.roots
    rw [h.grown.roots, hfather, if_neg nofun]
  · show (m'.arena.get? y).map Instance.seat = _
    by_cases hc : y = c
    · rw [hc, h.grown.new, Tree.seat_adding_self, Option.map_some]
    · rw [Tree.seat_adding_of_ne hc, h.grown.kept hc, hfather]
      by_cases hy : y = father
      · rw [if_pos hy, if_pos (congrArg some hy.symm), m.seat_tree, Option.map_map, Option.map_map]
        rfl
      · rw [if_neg hy, if_neg fun heq => hy (Option.some.inj heq).symm]
        rfl

/-- **Clearing a new child away** gives the tree from before it came. -/
theorem Model.Cleared.tree_eq {moment : Nat} (h : m₁.Cleared m₂ c moment)
    (hadded : m₁.tree = m.tree.adding father c s) (hs : s.children = []) (hm : m.arena.Forest)
    (hfresh : m.arena.get? c = none) : m₂.tree = m.tree := by
  obtain ⟨hroot, hlisted⟩ := hm.unlisted hfresh
  have hself : m₁.tree.seat c = some s := by rw [hadded, Tree.seat_adding_self]
  -- The new child has nothing under it but itself.
  have hunder : ∀ {y}, m₁.arena.Under c y → y = c := by
    intro y hu
    obtain ⟨i, hi, rfl⟩ := exists_of_seat hself
    rcases hu.eq_or_child with rfl | ⟨d, hd, -⟩
    · rfl
    · rw [Arena.childrenOf_eq hi, show i.children = [] from hs] at hd
      cases hd
  refine Tree.ext ?_ (funext fun y => ?_)
  · show m₂.arena.roots = m.arena.roots
    have hroots : m₁.arena.roots = m.arena.roots := congrArg Tree.roots hadded
    rw [h.roots, hroots, InstanceId.filter_ne_of_not_mem hroot]
  · by_cases hc : y = c
    · rw [hc, m₂.seat_tree, m.seat_tree, h.gone c .self, hfresh]
    · have hwithout : m₂.tree.seat y = (m₁.tree.seat y).map (·.withoutChild c) := by
        rw [m₂.seat_tree, h.elsewhere y fun hu => hc (hunder hu), m₁.seat_tree, Option.map_map,
          Option.map_map]
        rfl
      -- Nobody had it as a child before, so taking it out of a list is undoing its entry.
      have hchild : ∀ s, m.tree.seat y = some s → c ∉ s.children := by
        intro s hs
        obtain ⟨i, hi, rfl⟩ := exists_of_seat hs
        exact hlisted y i hi
      rw [hwithout, hadded, Tree.seat_adding_of_ne hc]
      cases hs : m.tree.seat y with
      | none => split <;> rfl
      | some s =>
        split
        · exact congrArg some (Seat.withoutChild_withChild (hchild s hs))
        · exact congrArg some (Seat.withoutChild_of_not_mem (hchild s hs))

/-- A seat that was added is changed later. -/
theorem Model.tree_modify_added {f : Instance β → Instance β} {g : Seat → Seat}
    (hadded : m'.tree = m.tree.adding father c s) (hf : ∀ i, (f i).seat = g i.seat) :
    (m'.modify c f).tree = m.tree.adding father c (g s) := by
  have hself : m'.tree.seat c = some s := by rw [hadded, Tree.seat_adding_self]
  refine Tree.ext ?_ (funext fun y => ?_)
  · exact (Arena.roots_modify f).trans (congrArg Tree.roots hadded)
  · show ((m'.arena.modify c f).get? y).map Instance.seat = _
    by_cases hc : y = c
    · obtain ⟨i, hi, rfl⟩ := exists_of_seat hself
      rw [hc, Arena.get?_modify_self, hi, Tree.seat_adding_self]
      exact congrArg some (hf i)
    · have hy : (m'.arena.get? y).map Instance.seat = m'.tree.seat y := rfl
      rw [Arena.get?_modify_of_ne hc, hy, hadded, Tree.seat_adding_of_ne hc,
        Tree.seat_adding_of_ne hc]

/-! ## Names of elements -/

theorem nameFree_iff_not_mem {a : Arena β} :
    a.NameFree (some father) name ↔ name ∉ Engine.childNames a father := by
  simp [Arena.NameFree, Engine.childNames, Arena.siblings, List.mem_filterMap]

/-- **The first number whose name no child of the father has.** -/
structure Model.FirstFree (m : Model β) (father : InstanceId) (k : Nat) : Prop where
  pos : 1 ≤ k
  free : m.arena.NameFree (some father) (Naming.elementName k)
  least : ∀ j, 1 ≤ j → j < k → ¬m.arena.NameFree (some father) (Naming.elementName j)

theorem Model.exists_firstFree (m : Model β) (father : InstanceId) :
    ∃ k, m.FirstFree father k ∧
      Naming.nextElementName (Engine.childNames m.arena father) = Naming.elementName k := by
  obtain ⟨k, hpos, hname, hfree, hleast⟩ :=
    Naming.exists_nextElementName (Engine.childNames m.arena father)
  exact ⟨k, ⟨hpos, nameFree_iff_not_mem.mpr hfree, fun j hj hlt hjfree =>
    nameFree_iff_not_mem.mp hjfree (hleast j hj hlt)⟩, hname⟩

theorem Model.nameFree_of_tree (h : m'.tree = m.tree) :
    m'.arena.NameFree (some father) name ↔ m.arena.NameFree (some father) name := by
  simp only [Arena.NameFree, Arena.siblings, childrenOf_of_tree h, localName?_of_tree h]

theorem Model.FirstFree.of_tree {k : Nat} (hk : m'.FirstFree father k) (h : m'.tree = m.tree) :
    m.FirstFree father k :=
  ⟨hk.pos, (nameFree_of_tree h).mp hk.free, fun j hj hlt hfree =>
    hk.least j hj hlt ((nameFree_of_tree h).mpr hfree)⟩

/-- **A father gains a child**, under the first element name that is free: a new instance, the last
of his children, as an element or as none.  Nothing else about the tree differs. -/
structure Model.Gains (m m' : Model β) (father c : InstanceId) (element : Bool) : Prop where
  fresh : m.arena.get? c = none
  tree : ∃ k, m.FirstFree father k ∧
    m'.tree = m.tree.adding father c ⟨some father, [], Naming.elementName k, element⟩

namespace Model.Gains

variable {element : Bool}

/-- What leaves the tree as it is can go before and after. -/
theorem of_tree (h : m₁.Gains m₂ father c element) (hbefore : m₁.tree = m.tree)
    (hafter : m'.tree = m₂.tree) : m.Gains m' father c element := by
  obtain ⟨k, hk, htree⟩ := h.tree
  refine ⟨?_, k, hk.of_tree hbefore, ?_⟩
  · have hseat : m.tree.seat c = none := by
      rw [← hbefore, m₁.seat_tree, h.fresh, Option.map_none]
    exact Option.map_eq_none_iff.mp hseat
  · rw [hafter, htree, hbefore]

/-- The new child is there. -/
theorem exists_new (h : m.Gains m' father c element) :
    ∃ i, m'.arena.get? c = some i ∧ i.father = some father ∧ i.element = element := by
  obtain ⟨k, -, htree⟩ := h.tree
  obtain ⟨i, hi, hseat⟩ := exists_of_seat (show m'.tree.seat c = _ by
    rw [htree, Tree.seat_adding_self])
  exact ⟨i, hi, congrArg Seat.father hseat, congrArg Seat.element hseat⟩

/-- **The new child is the last one.** -/
theorem last (h : m.Gains m' father c element) (hi : m.arena.get? father = some i) :
    m'.arena.childrenOf father = m.arena.childrenOf father ++ [c] := by
  obtain ⟨k, -, htree⟩ := h.tree
  have hne : father ≠ c := by
    rintro rfl
    rw [h.fresh] at hi
    cases hi
  have hseat : m'.tree.seat father = some (i.seat.withChild c) := by
    rw [htree, Tree.seat_adding_of_ne hne, if_pos rfl, m.seat_tree, hi]
    rfl
  obtain ⟨j, hj, hjseat⟩ := exists_of_seat hseat
  rw [Arena.childrenOf_eq hi, Arena.childrenOf_eq hj]
  exact congrArg Seat.children hjseat

end Model.Gains

/-! ## Making an instance -/

/-- An initializer that ends well leaves the tree as it is, if all bodies do. -/
theorem Engine.Considerate.sameTree_initialized {e : Engine β σ}
    (h : e.Considerate (OfModels Model.SameTree)) {found : FoundMethod β} {u : Unit}
    (hr : (e.initializeWith c args found).outcome w = some (.ok u, w')) :
    w'.model.tree = w.model.tree := by
  cases found with
  | none =>
    cases hr
    rfl
  | some found =>
    have hinvoke := h.invokeInitializer Model.undisturbed_sameTree.tolerant.toNeutral c found.2 args
    obtain ⟨r, w₁, hattempt, hend⟩ := exists_of_bind_ok hr
    have htree : w₁.model.tree = w.model.tree := hinvoke.attempt.of_outcome hattempt
    cases r with
    | ok v =>
      cases hend
      exact htree
    | error err => cases hend

variable {pending : List Pending} {type : TypeId} {element : Bool} {refusal : ModelError}

/-- A new instance is the last child of its father, and nothing else about the tree differs. -/
theorem tree_place (hw : Reachable pending w.model) (hready : FatherReady w.model (some father))
    (hident : Naming.isIdentifier name = true) (hfree : w.model.arena.NameFree (some father) name)
    (h : (place type (some father) name element : Action β σ InstanceId).outcome w =
      some (.ok c, w')) :
    w.model.arena.get? c = none ∧
      w'.model.tree = w.model.tree.adding father c ⟨some father, [], name, element⟩ := by
  obtain ⟨i, hplaced, hfather⟩ := exists_placed hw hready hident hfree h
  refine ⟨hplaced.grown.fresh, ?_⟩
  rcases outcome_place hw.sound.coherent.stored type name element (fun f hf => (hready f hf).1) with
    ⟨err, herr⟩ | ⟨c', w₁, hok, hplacing⟩
  · rw [h] at herr
    cases herr
  · rw [h] at hok
    cases hok
    have hborn : i = w.model.newborn type (some father) name element :=
      Option.some.inj (hplaced.grown.new.symm.trans hplacing.new)
    rw [hplaced.tree_eq hfather, hborn]
    rfl

/-- **A creation adds a child or leaves the tree as it is**, if all bodies leave it as it is. -/
theorem Language.created_child (L : Language β σ) (n : Nat) (hw : Reachable pending w.model)
    (hready : FatherReady w.model (some father)) (hident : Naming.isIdentifier name = true)
    (hfree : w.model.arena.NameFree (some father) name) (type : TypeId) (args : List Value)
    (element : Bool) :
    (((L.treeKeeping refusal).engine n).create type (some father) name args element).Always w
      (fun c w' => w.model.arena.get? c = none ∧
        w'.model.tree = w.model.tree.adding father c ⟨some father, [], name, element⟩)
      (fun _ w' => w'.model.tree = w.model.tree) := by
  have hkeeping : ((L.treeKeeping refusal).engine n).Considerate (OfModels Model.SameTree) :=
    L.considerate_treeKeeping n
  intro r w' hr
  cases r with
  | ok c =>
    obtain ⟨c', placed, hplace, hrest⟩ := exists_of_bind_ok hr
    rw [outcome_bind_ok (outcome_findMethod _ _)] at hrest
    obtain ⟨u, w₁, hinit, hend⟩ := exists_of_bind_ok hrest
    cases hend
    obtain ⟨hfresh, hadded⟩ := tree_place hw hready hident hfree hplace
    refine ⟨hfresh, ?_⟩
    have hinitialized := hkeeping.sameTree_initialized hinit
    rw [World.model_lookingUp] at hinitialized
    have hlive : (w₁.model.settling c).tree = w₁.model.tree := Model.tree_modify fun _ _ => rfl
    exact hlive.trans (hinitialized.trans hadded)
  | error err =>
    rcases Engine.exists_of_create_error hr with hplace | ⟨new, w₂, hinit, rfl⟩
    · rw [eq_counting_of_place_error hw.sound.coherent.stored (fun f hf => (hready f hf).1)
        hplace]
      rfl
    · obtain ⟨i, hplaced, -⟩ := exists_placed hw hready hident hfree new.placing
      obtain ⟨hfresh, hadded⟩ := tree_place hw hready hident hfree new.placing
      obtain ⟨hsound, -⟩ := new.inside hw hplaced hinit
      have hinvoke := (hkeeping.invokeInitializer
        Model.undisturbed_sameTree.tolerant.toNeutral new.id new.initializer args).of_outcome hinit
      have hbegun : w₂.model.tree = new.begun.model.tree := hinvoke
      rw [Engine.NewInstance.begun, World.model_lookingUp] at hbegun
      exact (Model.cleared_discarding hsound).tree_eq (hbegun.trans hadded) rfl
        hw.sound.coherent.forest hfresh

/-! ## The two steps -/

namespace Engine

variable (e : Engine β σ)

/-- **Makes an element**, unless the father's rules refuse its type. -/
def makeElement (father : InstanceId) (typeName : String) (args : List Value) :
    Action β σ (Except Rejection InstanceId) := do
  Action.ensureAcceptsChildren father "add an element to"
  let type ← Action.instantiableType typeName
  let typeSymbol : Symbol := ⟨(← Action.model).types.name type⟩
  match ← e.callRules father Reason.createElement.symbol none (.symbol typeSymbol) with
  | .rejected rejection => return .error rejection
  | .passed _ =>
    let _ ← Action.find father
    let name := Naming.nextElementName (childNames (← Action.model).arena father)
    return .ok (← e.create type (some father) name args true)

/-- The father's rules on a new element. -/
def askElement (father child : InstanceId) : Action β σ ChainOutcome :=
  e.callRules father Reason.newElement.symbol none (.ref child)

/-- **Confirms an element that was made**, unless the father's rules reject it. -/
def confirmElement (father child : InstanceId) : Action β σ ElementOutcome := do
  match ← e.askElement father child with
  | .passed _ => return .accepted child
  | .rejected rejection =>
    Action.update child fun i => { i with element := false }
    return .demoted child rejection

/-- What follows when an element was made or refused. -/
def concludeElement (father : InstanceId) : Except Rejection InstanceId → Action β σ ElementOutcome
  | .error rejection => return .rejected rejection
  | .ok child => e.confirmElement father child

/-- **Adding an element is to make it and to confirm it.** -/
theorem addElement_eq (father : InstanceId) (typeName : String) (args : List Value) :
    e.addElement father typeName args =
      e.makeElement father typeName args >>= e.concludeElement father := by
  unfold addElement makeElement
  simp only [bind_assoc]
  refine congrArg _ (funext fun _ => congrArg _ (funext fun type => ?_))
  refine congrArg _ (funext fun m => congrArg _ (funext fun outcome => ?_))
  cases outcome with
  | rejected rejection => rfl
  | passed k =>
    simp only [bind_assoc, pure_bind]
    rfl

end Engine

/-- What refuses leaves the tree as it is. -/
theorem Action.Refuses.always_sameTree {α : Type} {x : Action β σ α} {ok : α → World β σ → Prop}
    (h : x.Refuses w) : x.Always w ok fun _ w' => w'.model.tree = w.model.tree := by
  obtain ⟨err, w₁, hout, arena, honly, rfl⟩ := h
  intro r w' hr
  rw [hout] at hr
  cases hr
  exact Model.tree_eq honly.roots fun y => honly.map_eq Instance.seat (fun _ => rfl) y

section

variable {pending : List Pending} {refusal : ModelError} (L : Language β σ) (n : Nat)

/-- A rule chain leaves the tree as it is, and comes to a state of the run. -/
theorem Language.chain_sameTree (hw : Reachable pending w.model) {id : InstanceId} {reason : Symbol}
    {phase : Option RuleKind} {arg : Value} {r : Except ModelError ChainOutcome}
    (hr : (((L.treeKeeping refusal).engine n).callRules id reason phase arg).outcome w =
      some (r, w')) :
    Reachable pending w'.model ∧ w'.model.tree = w.model.tree := by
  have hperform : (perform (L.treeKeeping refusal) (n + 1)
      (.callRules id reason phase arg)).outcome w = some (r, w') := hr
  exact ⟨hw.after_perform hperform,
    (sameTree_perform_treeKeeping L (n + 1) rfl).of_outcome hperform⟩

/-- **An element is made, or the tree stays as it is.** -/
theorem Language.made_element (hw : Reachable pending w.model) (father : InstanceId)
    (typeName : String) (args : List Value) :
    (((L.treeKeeping refusal).engine n).makeElement father typeName args).Always w
      (fun made w' => (∀ rejection, made = .error rejection → w'.model.tree = w.model.tree) ∧
        ∀ c, made = .ok c → w.model.Gains w'.model father c true)
      (fun _ w' => w'.model.tree = w.model.tree) := by
  unfold Engine.makeElement
  by_cases haccepts : w.model.AcceptsChildren father
  rotate_left
  · exact (refuses_ensureAcceptsChildren haccepts).bind.always_sameTree
  rw [always_bind_of_ok (outcome_ensureAcceptsChildren_of haccepts)]
  by_cases hinstantiable : ∃ type, w.model.Instantiable typeName type
  rotate_left
  · exact (refuses_instantiableType (not_exists.mp hinstantiable)).bind.always_sameTree
  obtain ⟨type, htype⟩ := hinstantiable
  rw [always_bind_of_ok (outcome_instantiableType_of htype),
    always_bind_of_ok (outcome_model w), always_bind]
  intro r w₁ hr
  obtain ⟨hw₁, htree₁⟩ := L.chain_sameTree n hw hr
  cases r with
  | error err => exact htree₁
  | ok outcome =>
    cases outcome with
    | rejected rejection =>
      exact (always_pure _).mpr ⟨fun _ _ => htree₁, nofun⟩
    | passed executed =>
      refine (always_bind _ _).mpr ((always_find father).mpr ⟨fun f hf => ?_, fun _ => htree₁⟩)
      rw [always_bind_of_ok (outcome_model w₁), always_bind]
      -- The father was idle when he was checked, and is so after his rules.
      have hready : FatherReady w₁.model (some father) := by
        rintro g ⟨⟩
        obtain ⟨i, hi, -, hidle⟩ := haccepts
        exact ⟨⟨f, hf⟩, hw.sound.idle_of_idle hw₁.sound ((Model.busyOf_eq hi).trans hidle)⟩
      obtain ⟨k, hk, hname⟩ := w₁.model.exists_firstFree father
      have hcreated := @Language.created_child _ _ _ _ _ _ refusal L n hw₁ hready
        (Naming.isIdentifier_nextElementName _) (nameFree_nextElementName _ _) type args true
      refine hcreated.mono (fun c w₂ hc => ?_) fun _ w₂ hsame => hsame.trans htree₁
      obtain ⟨hfresh, hadded⟩ := hc
      have hgains : w₁.model.Gains w₂.model father c true := ⟨hfresh, k, hk, hname ▸ hadded⟩
      refine (always_pure _).mpr ⟨nofun, fun c' hc' => ?_⟩
      cases hc'
      exact hgains.of_tree htree₁ rfl

/-- **An element is confirmed, or demoted, or the rules fail**; then it stays where it is. -/
theorem Language.confirmed_element {made : World β σ} (hgains : m.Gains made.model father c true) :
    (((L.treeKeeping refusal).engine n).confirmElement father c).Always made
      (fun outcome w' => (outcome = .accepted c ∧ m.Gains w'.model father c true) ∨
        ∃ rejection, outcome = .demoted c rejection ∧ m.Gains w'.model father c false)
      (fun err w' => (((L.treeKeeping refusal).engine n).askElement father c).outcome made =
        some (.error err, w') ∧ m.Gains w'.model father c true) := by
  unfold Engine.confirmElement
  rw [always_bind]
  intro r w₁ hr
  have hperform : (perform (L.treeKeeping refusal) (n + 1)
      (.callRules father Reason.newElement.symbol none (.ref c))).outcome made = some (r, w₁) := hr
  -- The rules that are asked leave the tree alone, whatever they answer.
  have htree : w₁.model.tree = made.model.tree :=
    (sameTree_perform_treeKeeping L (n + 1) rfl).of_outcome hperform
  have hstays : m.Gains w₁.model father c true := hgains.of_tree rfl htree
  cases r with
  | error err => exact ⟨hr, hstays⟩
  | ok outcome =>
    cases outcome with
    | passed executed => exact (always_pure _).mpr (.inl ⟨rfl, hstays⟩)
    | rejected rejection =>
      obtain ⟨k, hk, hadded⟩ := hstays.tree
      obtain ⟨i, hi, -⟩ := hstays.exists_new
      have hdemoted := Model.tree_modify_added (g := fun s => { s with element := false })
        hadded (f := fun i : Instance β => { i with element := false }) fun _ => rfl
      dsimp only
      rw [always_bind_of_ok (outcome_update hi _)]
      exact (always_pure _).mpr (.inr ⟨rejection, rfl, hstays.fresh, k, hk, hdemoted⟩)

/-- **How adding an element ends**, in every state of a run, when neither rules nor initializers
change the tree themselves.

* An element that is accepted is a new instance, the last child of its father, under the first
  element name that is free.
* One that is demoted is the same and no element.
* A type that is rejected leaves the tree as it was.
* So does every error before the rules have been asked to confirm the element.  An error of these
  rules is passed on, and leaves the new element where it is. -/
theorem Language.element_added (hw : Reachable pending w.model) (father : InstanceId)
    (typeName : String) (args : List Value) {r : Except ModelError ElementOutcome}
    (hr : (perform (L.treeKeeping refusal) (n + 1) (.addElement father typeName args)).outcome w =
      some (r, w')) :
    (∀ c, r = .ok (.accepted c) → w.model.Gains w'.model father c true) ∧
    (∀ c rejection, r = .ok (.demoted c rejection) → w.model.Gains w'.model father c false) ∧
    (∀ rejection, r = .ok (.rejected rejection) → w.model.SameTree w'.model) ∧
    ∀ err, r = .error err →
      ((((L.treeKeeping refusal).engine n).makeElement father typeName args).outcome w =
        some (.error err, w') ∧ w.model.SameTree w'.model) ∨
      ∃ c made, (((L.treeKeeping refusal).engine n).makeElement father typeName args).outcome w =
          some (.ok (.ok c), made) ∧
        (((L.treeKeeping refusal).engine n).askElement father c).outcome made =
          some (.error err, w') ∧ w.model.Gains w'.model father c true := by
  have hadd : (((L.treeKeeping refusal).engine n).addElement father typeName args).outcome w =
      some (r, w') := hr
  have hmake := @Language.made_element _ _ _ _ refusal L n hw father typeName args
  rw [Engine.addElement_eq] at hadd
  cases r with
  | error err =>
    refine ⟨nofun, nofun, nofun, fun err' herr => ?_⟩
    cases herr
    rcases exists_of_bind_error hadd with hmade | ⟨result, made, hmade, hend⟩
    · exact Or.inl ⟨hmade, hmake.of_error hmade⟩
    · cases result with
      | error rejection => cases hend
      | ok c =>
        have hgains := (hmake.of_ok hmade).2 c rfl
        obtain ⟨hasked, hstays⟩ := (L.confirmed_element n hgains).of_error hend
        exact Or.inr ⟨c, made, hmade, hasked, hstays⟩
  | ok outcome =>
    obtain ⟨result, made, hmade, hend⟩ := exists_of_bind_ok hadd
    cases result with
    | error rejection =>
      cases hend
      exact ⟨nofun, nofun, fun _ _ => (hmake.of_ok hmade).1 rejection rfl, nofun⟩
    | ok c =>
      have hgains := (hmake.of_ok hmade).2 c rfl
      rcases (L.confirmed_element n hgains).of_ok hend with
        ⟨rfl, hgained⟩ | ⟨rejection, rfl, hgained⟩
      · refine ⟨fun c' hc => ?_, nofun, nofun, nofun⟩
        cases hc
        exact hgained
      · refine ⟨nofun, fun c' rejection' hc => ?_, nofun, nofun⟩
        cases hc
        exact hgained

end

/-! ## Rules that fail on a new element -/

namespace Frames

/-- The error of a rule. -/
def fault : ModelError := .dispatch (.notCallable "latch")

/-- **The language of rules that know their verdict**, or fail. -/
def language : Language (Option Verdict) Unit where
  method _ _ := .pure .void
  rule verdict? _ :=
    match verdict? with
    | some verdict => .pure verdict
    | none => .fail fault
  evaluate _ _ _ := .pure ()
  inspect _ _ := .pure ()
  transformed _ _ _ host := host

/-- A type with one rule about new elements. -/
def frame (name : String) (verdict? : Option Verdict) : TypeDef (Option Verdict) where
  name := name
  rules := [{ reason := Reason.newElement.symbol, kind := .posterior, body := verdict? }]

/-- Makes a type of parts, and three frames with different rules. -/
def build : Body (Option Verdict) Unit Unit := do
  let _ ← Program.call (Op.register { name := "Part" })
  let _ ← Program.call (Op.register (frame "Open" (some .accept)))
  let _ ← Program.call (Op.register (frame "Sieve" (some .reject)))
  let _ ← Program.call (Op.register (frame "Gate" none))
  let _ ← Program.call (Op.instantiate "Open" none "open" [])
  let _ ← Program.call (Op.instantiate "Sieve" none "sieve" [])
  let _ ← Program.call (Op.instantiate "Gate" none "gate" [])

/-- The rejection by the rule of a sieve. -/
def rejection : Rejection := ⟨⟨1, 0⟩, Reason.newElement.symbol, "Sieve", 0⟩

/-- A part is added to an instance. -/
def adding (father : InstanceId) : Action (Option Verdict) Unit ElementOutcome :=
  perform (language.treeKeeping fault) 2 (.addElement father "Part" [])

/-- **A run with three frames**, and what becomes of a part that is added to each of them. -/
theorem exists_frames : ∃ w w₁ w₂ w₃ err, Reachable [] w.model ∧
    (adding ⟨0, 0⟩).outcome w = some (.ok (.accepted ⟨3, 0⟩), w₁) ∧
    (adding ⟨1, 0⟩).outcome w = some (.ok (.demoted ⟨3, 0⟩ rejection), w₂) ∧
    (adding ⟨2, 0⟩).outcome w = some (.error err, w₃) ∧
    w.model.arena.childrenOf ⟨2, 0⟩ = [] ∧ w₃.model.arena.childrenOf ⟨2, 0⟩ = [⟨3, 0⟩] ∧
    ∃ i, w.model.arena.get? ⟨2, 0⟩ = some i := by
  have hrun : ((Body.exec language 2 build).outcome { host := () }).any (fun built =>
      ((adding ⟨0, 0⟩).outcome built.2).any (·.1.toOption = some (.accepted ⟨3, 0⟩)) &&
      ((adding ⟨1, 0⟩).outcome built.2).any (·.1.toOption = some (.demoted ⟨3, 0⟩ rejection)) &&
      ((adding ⟨2, 0⟩).outcome built.2).any (fun failed => failed.1.toOption = none &&
        failed.2.model.arena.childrenOf ⟨2, 0⟩ = [⟨3, 0⟩]) &&
      built.2.model.arena.childrenOf ⟨2, 0⟩ = [] &&
      (built.2.model.arena.get? ⟨2, 0⟩).isSome) = true := by
    decide +kernel
  simp only [Option.any_eq_true, Bool.and_eq_true, decide_eq_true_eq, Prod.exists] at hrun
  obtain ⟨r, w, hbuilt, ⟨⟨⟨⟨r₁, w₁, hopen, h₁⟩, r₂, w₂, hsieve, h₂⟩, r₃, w₃, hgate, h₃,
    hstays⟩, hempty⟩, hthere⟩ := hrun
  obtain rfl := eq_ok_of_toOption h₁
  obtain rfl := eq_ok_of_toOption h₂
  obtain err | _ := r₃
  rotate_left
  · cases h₃
  exact ⟨w, w₁, w₂, w₃, err, (Reachable.empty rfl rfl).after_exec hbuilt, hopen, hsieve, hgate,
    hempty, hstays, Option.isSome_iff_exists.mp hthere⟩

end Frames

/-- An open frame accepts a part and a sieve demotes it.  At a gate the rule fails, and the part
stays there as an element. -/
theorem Language.element_added_frames : ∃ w w₁ w₂ w₃ err, Reachable [] w.model ∧
    (Frames.adding ⟨0, 0⟩).outcome w = some (.ok (.accepted ⟨3, 0⟩), w₁) ∧
    w.model.Gains w₁.model ⟨0, 0⟩ ⟨3, 0⟩ true ∧
    (Frames.adding ⟨1, 0⟩).outcome w = some (.ok (.demoted ⟨3, 0⟩ Frames.rejection), w₂) ∧
    w.model.Gains w₂.model ⟨1, 0⟩ ⟨3, 0⟩ false ∧
    (Frames.adding ⟨2, 0⟩).outcome w = some (.error err, w₃) ∧
    w.model.Gains w₃.model ⟨2, 0⟩ ⟨3, 0⟩ true := by
  obtain ⟨w, w₁, w₂, w₃, err, hw, hopen, hsieve, hgate, hempty, hstays, i, hi⟩ :=
    Frames.exists_frames
  obtain ⟨haccepted, -, -, -⟩ :=
    Language.element_added Frames.language 1 hw ⟨0, 0⟩ "Part" [] hopen
  obtain ⟨-, hdemoted, -, -⟩ :=
    Language.element_added Frames.language 1 hw ⟨1, 0⟩ "Part" [] hsieve
  obtain ⟨-, -, -, hfailed⟩ :=
    Language.element_added Frames.language 1 hw ⟨2, 0⟩ "Part" [] hgate
  refine ⟨w, w₁, w₂, w₃, err, hw, hopen, haccepted _ rfl, hsieve, hdemoted _ _ rfl, hgate, ?_⟩
  rcases hfailed err rfl with ⟨-, hsame⟩ | ⟨c, made, -, -, hgains⟩
  · -- The gate has got a child, so the tree is another one.
    have hchildren := Model.childrenOf_of_tree hsame ⟨2, 0⟩
    rw [hempty, hstays] at hchildren
    cases hchildren
  · have hlast := hgains.last hi
    rw [hempty, hstays] at hlast
    obtain rfl : ⟨3, 0⟩ = c := List.singleton_inj.mp hlast
    exact hgains

end ProductModel
