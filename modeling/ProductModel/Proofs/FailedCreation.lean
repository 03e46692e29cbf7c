import ProductModel.Proofs.Run.Refusals

/-!
# What a failed creation leaves behind

An instantiation that is refused by a check, or finds no room, has touched nothing
(`World.Untouched`).  Later than that only an initializer can make it fail.  By then the instance is
in its place, and the initializer may have done anything to the model: built a subtree below the
instance, left instances elsewhere, removed the father and the instance with him.  Its error is
passed on, and what lies below the handle of the instance at that moment is cleared away
(`Model.Cleared`): it is gone and listed nowhere, and all else is what the initializer has made of
it.

`Language.failed_instantiation` says so for every instantiation in every state of a run, from
outside or by a body at any depth.

## Design

The clean-up follows the handle.  If the father went, and the instance with him, then there is
nothing to clear; should the handle have been issued again since, it is an instance of that same
call that goes.  Either way everything that is cleared away is newer than what was there before the
call (`Model.Cleared.newer`), because the birth that is under way holds that much of its handle.
-/

namespace ProductModel

open ProductModel.Action

variable {β σ : Type} {m m' : Model β} {w w' : World β σ} {id x y : InstanceId} {i j : Instance β}
  {moment : Nat}

/-! ## Nothing is touched -/

/-- **Nothing is touched**: no instance but for its remembered name, no list of instances, and
nothing beside the instances. -/
structure World.Untouched (w w' : World β σ) : Prop where
  instances : ∀ y, (w'.model.arena.get? y).map Instance.forgetName =
    (w.model.arena.get? y).map Instance.forgetName
  roots : w'.model.arena.roots = w.model.arena.roots
  types : w'.model.types = w.model.types
  changes : w'.model.changes = w.model.changes
  products : w'.model.products = w.model.products
  surroundings : w'.config = w.config ∧ w'.cache = w.cache ∧ w'.host = w.host

theorem World.Remembers.untouched (h : w.Remembers w') : w.Untouched w' := by
  obtain ⟨arena, only, rfl⟩ := h
  exact ⟨only.same, only.roots, rfl, rfl, rfl, rfl, rfl, rfl⟩

/-- A number that was given out for nothing touches nothing. -/
theorem World.untouched_counting (w : World β σ) : w.Untouched w.counting :=
  ⟨fun y => by rw [counting, Arena.get?_nextOrder], rfl, rfl, rfl, rfl, rfl, rfl, rfl⟩

/-! ## A subtree is cleared away -/

/-- **A subtree is cleared away**, all of it made after a moment, and nothing else is touched. -/
structure Model.Cleared (m m' : Model β) (id : InstanceId) (moment : Nat) : Prop where
  gone : ∀ y, m.arena.Under id y → m'.arena.get? y = none
  unlisted : ∀ y, m.arena.Under id y →
    y ∉ m'.arena.roots ∧ ∀ x j, m'.arena.get? x = some j → y ∉ j.children
  unprovided : ∀ y, m.arena.Under id y → m'.products.get? y = none
  newer : ∀ y j, m.arena.Under id y → m.arena.get? y = some j → moment < j.order
  /-- an instance elsewhere loses at most the top of the subtree from its children -/
  elsewhere : ∀ y, ¬m.arena.Under id y →
    m'.arena.get? y = (m.arena.get? y).map (·.withoutChild id)
  roots : m'.arena.roots = m.arena.roots.filter (· ≠ id)
  products : ∀ y, ¬m.arena.Under id y → m'.products.get? y = m.products.get? y
  types : m'.types = m.types
  changes : m'.changes = m.changes

theorem Instance.withoutChild_of_not_mem (h : id ∉ i.children) : i.withoutChild id = i := by
  rw [withoutChild, InstanceId.filter_ne_of_not_mem h]

/-- Under a handle without an instance there is nothing else. -/
theorem Arena.Under.eq_of_absent {a : Arena β} (h : a.Under id y) (hnone : a.get? id = none) :
    y = id := by
  rcases h.eq_or_child with rfl | ⟨c, hc, -⟩
  · rfl
  · rw [Arena.childrenOf, hnone] at hc
    cases hc

/-- What is gone is listed nowhere. -/
theorem Arena.Forest.unlisted {a : Arena β} (h : a.Forest) (hnone : a.get? y = none) :
    y ∉ a.roots ∧ ∀ x j, a.get? x = some j → y ∉ j.children := by
  refine ⟨fun hroot => ?_, fun x j hj hchild => ?_⟩
  · obtain ⟨i, hi, -⟩ := h.root.mp hroot
    rw [hnone] at hi
    cases hi
  · obtain ⟨i, hi, -⟩ := h.child hj hchild
    rw [hnone] at hi
    cases hi

theorem Model.Coherent.unprovided (h : m.Coherent) (hnone : m.arena.get? y = none) :
    m.products.get? y = none := by
  refine Association.get?_eq_none fun hmem => ?_
  obtain ⟨i, hi⟩ := h.products y hmem
  rw [hnone] at hi
  cases hi

/-- Where there is no instance there is nothing to clear away. -/
theorem Model.Coherent.cleared_of_absent (h : m.Coherent) (hnone : m.arena.get? id = none)
    (moment : Nat) : m.Cleared m id moment := by
  have honly : ∀ y, m.arena.Under id y → m.arena.get? y = none :=
    fun y hu => hu.eq_of_absent hnone ▸ hnone
  obtain ⟨hroots, hchildren⟩ := h.forest.unlisted hnone
  exact {
    gone := honly
    unlisted := fun y hu => h.forest.unlisted (honly y hu)
    unprovided := fun y hu => h.unprovided (honly y hu)
    newer := fun y j hu hj => by
      rw [honly y hu] at hj
      cases hj
    elsewhere := fun y _ => by
      cases hj : m.arena.get? y with
      | none => rfl
      | some j => rw [Option.map_some, Instance.withoutChild_of_not_mem (hchildren y j hj)]
    roots := (InstanceId.filter_ne_of_not_mem hroots).symm
    products := fun y _ => rfl
    types := rfl
    changes := rfl }

/-- Only its father has an instance among his children. -/
theorem Arena.Forest.not_mem_children {a : Arena β} (h : a.Forest) (hi : a.get? id = some i)
    (hf : i.father ≠ some y) (hj : a.get? y = some j) : id ∉ j.children := by
  rw [← Arena.childrenOf_eq hj, h.mem_childrenOf hi]
  exact hf

/-- **Removing the subtree of an instance that is newer** than a moment clears it away. -/
theorem Model.Coherent.cleared_removeSubtree (h : m.Coherent) (hi : m.arena.get? id = some i)
    (hafter : (m.removeSubtree id i.father).2.Coherent) (hnewer : moment < i.order) :
    m.Cleared (m.removeSubtree id i.father).2 id moment := by
  have p := m.pruned_removeSubtree h id i.father
  have hpost : m.arena.Postorder id (m.removeSubtree id i.father).1 :=
    h.forest.postorder_postorder id
  exact {
    gone := fun y hu => p.gone hu
    unlisted := fun y hu => hafter.forest.unlisted (p.gone hu)
    unprovided := fun y hu => hafter.unprovided (p.gone hu)
    newer := fun y j hu hj => by
      have hle := hu.order_le h.forest
      rw [Arena.orderOf_eq hi, Arena.orderOf_eq hj] at hle
      exact Nat.lt_of_lt_of_le hnewer hle
    elsewhere := fun y hu => by
      rw [p.kept hu]
      split
      · rfl
      · rename_i hf
        cases hj : m.arena.get? y with
        | none => rfl
        | some j =>
          rw [Option.map_some,
            Instance.withoutChild_of_not_mem (h.forest.not_mem_children hi hf hj)]
    roots := Model.roots_removeSubtree h id i.father
    products := fun y hu =>
      Association.get?_foldl_erase _ _ fun hmem => hu (hpost.mem_iff.mp hmem)
    types := rfl
    changes := rfl }

/-- **Discarding an instance that is being born** clears its subtree away. -/
theorem Model.cleared_discarding {pending : List Pending}
    (h : Sound (.birth id moment :: pending) m) : m.Cleared (m.discarding id) id moment := by
  have hafter := h.discard.coherent
  unfold Model.discarding at hafter ⊢
  cases hi : m.arena.get? id with
  | none => exact h.coherent.cleared_of_absent hi moment
  | some i =>
    rw [hi] at hafter
    have hnewer : moment < i.order := (h.held _ List.mem_cons_self).2 i hi
    exact h.coherent.cleared_removeSubtree hi hafter hnewer

/-! ## Instantiations that fail -/

/-- What is admitted can be placed under its father. -/
theorem Model.Admits.ready {typeName name : String} {father : Option InstanceId} {type : TypeId}
    (h : m.Admits typeName father name type) : FatherReady m father := by
  intro f hf
  obtain ⟨i, hi, -, hidle⟩ := h.accepts f hf
  exact ⟨⟨i, hi⟩, (Model.busyOf_eq hi).trans hidle⟩

section NewInstance

variable {L : Language β σ} {n : Nat} {pending : List Pending} {typeName name : String}
  {father : Option InstanceId} {type : TypeId} {element : Bool} {args : List Value}
  {err : ModelError}

/-- A new instance is in its place. -/
theorem exists_placed (hw : Reachable pending w.model) (hready : FatherReady w.model father)
    (hident : Naming.isIdentifier name = true) (hfree : w.model.arena.NameFree father name)
    (h : (place type father name element : Action β σ InstanceId).outcome w =
      some (.ok id, w')) :
    ∃ i, Placed w.model id i w'.model ∧ i.father = father := by
  -- What is seen on the way does not matter here.
  have halways := @place_always β σ (fun _ => {}) _ _ _ type _ element hw hready hident hfree
  obtain ⟨i, hplaced, hfather, -⟩ := halways.of_ok h
  exact ⟨i, hplaced, hfather⟩

/-- **From the placing of an instance to the end of its initializer.** -/
theorem Engine.NewInstance.inside (c : Engine.NewInstance w type father name element)
    (hw : Reachable pending w.model) (hplaced : Placed w.model c.id i c.placed.model)
    (h : ((L.engine n).invokeInitializer c.id c.initializer args).outcome c.begun =
      some (.error err, w')) :
    Sound (.birth c.id w.model.arena.lastOrder :: pending) w'.model ∧
      Aged c.placed.model w'.model := by
  have hmodel : c.begun.model = c.placed.model := World.model_lookingUp _ _ _
  obtain ⟨v, hv, hsame⟩ :=
    ((L.alike_watched n).invokeInitializer c.id c.initializer args).exists_outcome h
  have hinside := ((L.lawful_watched n).invokeInitializer_always (w := c.begun.watching)
    c.initializer args (hmodel ▸ hw.place hplaced)
    (show c.begun.model.arena.get? c.id = some i from hmodel ▸ hplaced.grown.new)
    hplaced.order).of_error hv
  rw [← hsame]
  exact ⟨hinside.reachable.sound, hmodel ▸ hinside.aged⟩

/-- **The instance is gone for good**: nothing has its number after its subtree was cleared away. -/
theorem Engine.NewInstance.vanished (c : Engine.NewInstance w type father name element)
    (hplaced : Placed w.model c.id i c.placed.model) (aged : Aged c.placed.model m)
    (hcleared : m.Cleared m' c.id moment) (hj : m'.arena.get? y = some j) : j.order ≠ i.order := by
  intro horder
  have hunder : ¬m.arena.Under c.id y := fun hu => by
    rw [hcleared.gone y hu] at hj
    cases hj
  rw [hcleared.elsewhere y hunder] at hj
  obtain ⟨k, hk, rfl⟩ := Option.map_eq_some_iff.mp hj
  rcases aged.origin hk with ⟨l, hl, hsame, -⟩ | hnewer
  · rcases hplaced.grown.back hl with ⟨rfl, -⟩ | ⟨l', hl', rfl⟩
    · exact hunder .self
    · -- Whatever else was there when the instance was placed has an earlier number.
      have hearlier := hplaced.grown.latest hl'
      have hkept : l'.order = k.order := by
        rw [← hsame]
        split <;> rfl
      exact Nat.ne_of_lt hearlier (hkept.trans horder)
  · rw [hplaced.lastOrder] at hnewer
    exact Nat.lt_irrefl _ (horder ▸ hnewer)

/-- An instantiation that is refused has touched nothing. -/
theorem Language.untouched_of_refused (L : Language β σ) (n : Nat) (args : List Value)
    (h : ∀ type, ¬w.model.Admits typeName father name type) : ∃ err w',
      (perform L (n + 1) (.instantiate typeName father name args)).outcome w =
        some (.error err, w') ∧ w.Untouched w' := by
  have hrefuses : ((L.engine n).instantiate typeName father name args).Refuses w :=
    Engine.instantiate_refuses h
  obtain ⟨err, w', hr, hsame⟩ := hrefuses
  exact ⟨err, w', hr, hsame.untouched⟩

end NewInstance

/-- **What a failed instantiation leaves behind**, in every state of a run.

* What is not admitted is refused, and nothing is touched.
* If the initializer of the new instance fails, then its error is that of the instantiation.  The
  subtree of the instance is cleared away from the world that the initializer has left, and nothing
  has the number of the instance any more.
* There is no other way to fail, apart from the want of room for an instance. -/
theorem Language.failed_instantiation (L : Language β σ) (n : Nat) {pending : List Pending}
    {w : World β σ} (hw : Reachable pending w.model) (typeName : String)
    (father : Option InstanceId) (name : String) (args : List Value) :
    ((∀ type, ¬w.model.Admits typeName father name type) → ∃ err w',
      (perform L (n + 1) (.instantiate typeName father name args)).outcome w =
        some (.error err, w') ∧ w.Untouched w') ∧
    (∀ {type} (c : Engine.NewInstance w type father name false) {err w₂},
      w.model.Admits typeName father name type →
      ((L.engine n).invokeInitializer c.id c.initializer args).outcome c.begun =
        some (.error err, w₂) → ∃ w',
      (perform L (n + 1) (.instantiate typeName father name args)).outcome w =
        some (.error err, w') ∧
      w₂.model.Cleared w'.model c.id w.model.arena.lastOrder ∧ w' = { w₂ with model := w'.model } ∧
      ∀ {y i j}, c.placed.model.arena.get? c.id = some i → w'.model.arena.get? y = some j →
        j.order ≠ i.order) ∧
    ∀ {err w'}, (perform L (n + 1) (.instantiate typeName father name args)).outcome w =
        some (.error err, w') →
      w.Untouched w' ∨ ∃ (type : TypeId) (c : Engine.NewInstance w type father name false)
        (w₂ : World β σ), w.model.Admits typeName father name type ∧
          ((L.engine n).invokeInitializer c.id c.initializer args).outcome c.begun =
            some (.error err, w₂) := by
  refine ⟨L.untouched_of_refused n args, fun {type} c {err w₂} hadmits hinit => ?_,
    fun {err w'} hfailed => ?_⟩
  · obtain ⟨i, hplaced, -⟩ := exists_placed hw hadmits.ready
      (Naming.isIdentifier_of_validate hadmits.valid) hadmits.free c.placing
    obtain ⟨hsound, haged⟩ := c.inside hw hplaced hinit
    have hcleared := Model.cleared_discarding hsound
    refine ⟨_, (Engine.outcome_instantiate hadmits).trans (c.outcome_create hinit), hcleared, rfl,
      fun {y i' j} hi' hj => ?_⟩
    rw [hplaced.grown.new] at hi'
    cases hi'
    exact c.vanished hplaced haged hcleared hj
  · by_cases hadmits : ∃ type, w.model.Admits typeName father name type
    · obtain ⟨type, hadmits⟩ := hadmits
      have hcreate := (Engine.outcome_instantiate hadmits).symm.trans hfailed
      rcases Engine.exists_of_create_error hcreate with hplace | ⟨c, w₂, hinit, -⟩
      · rw [eq_counting_of_place_error hw.sound.coherent.stored
          (fun f hf => (hadmits.ready f hf).1) hplace]
        exact Or.inl w.untouched_counting
      · exact Or.inr ⟨type, c, w₂, hadmits, hinit⟩
    · obtain ⟨err', w'', hr, hsame⟩ := L.untouched_of_refused n args (not_exists.mp hadmits)
      rw [hfailed] at hr
      cases hr
      exact Or.inl hsame

/-! ## An initializer that fails halfway -/

namespace Collapse

/-- The error of the initializer. -/
def collapse : ModelError := .dispatch (.notCallable "lid")

/-- **The language with one method**, which builds on its receiver, leaves a part elsewhere, and
fails then. -/
def language : Language Unit Unit where
  method _ call := do
    let lid ← Program.call (Op.instantiate "Part" call.receiver "lid" [])
    let _ ← Program.call (Op.instantiate "Part" (some lid) "handle" [])
    let _ ← Program.call (Op.instantiate "Part" none "spare" [])
    .fail collapse
  rule _ _ := .pure .accept
  evaluate _ _ _ := .pure ()
  inspect _ _ := .pure ()
  transformed _ _ _ host := host

/-- Makes the types of parts and of crates, which have the initializer. -/
def build : Body Unit Unit Unit := do
  let _ ← Program.call (Op.register { name := "Part" })
  let _ ← Program.call (Op.register
    { name := "Crate", methods := [{ name := Engine.initializeName, body := () }] })

/-- Whether an initializer has failed in this way. -/
def hasCollapsed : Except ModelError Value → Bool
  | .ok _ => false
  | .error err => err = collapse

/-- The crate, its lid and the handle of the lid. -/
def crate : List InstanceId := [⟨0, 0⟩, ⟨1, 0⟩, ⟨2, 0⟩]

theorem under_crate {a : Arena Unit} (hlid : a.childrenOf ⟨0, 0⟩ = [⟨1, 0⟩])
    (hhandle : a.childrenOf ⟨1, 0⟩ = [⟨2, 0⟩]) (hend : a.childrenOf ⟨2, 0⟩ = []) :
    a.Under ⟨0, 0⟩ y ↔ y ∈ crate := by
  have honly : ∀ {x c}, a.childrenOf x = [c] → (a.Under x y ↔ y = x ∨ a.Under c y) := by
    intro x c hx
    refine ⟨fun h => ?_, ?_⟩
    · rcases h.eq_or_child with rfl | ⟨c', hc', h⟩
      · exact Or.inl rfl
      · rw [hx, List.mem_singleton] at hc'
        exact Or.inr (hc' ▸ h)
    · rintro (rfl | h)
      · exact .self
      · exact .of_child (hx ▸ List.mem_singleton_self c) h
  have hlast : a.Under ⟨2, 0⟩ y ↔ y = ⟨2, 0⟩ := by
    refine ⟨fun h => h.eq_or_child.elim id fun ⟨c, hc, _⟩ => ?_, fun h => h ▸ .self⟩
    rw [hend] at hc
    cases hc
  rw [honly hlid, honly hhandle, hlast]
  simp [crate]

/-- **A run in which the crate is about to collapse**, and how far its initializer comes. -/
theorem exists_collapsing :
    ∃ (w w₂ : World Unit Unit) (c : Engine.NewInstance w ⟨1⟩ none "crate" false),
      Reachable [] w.model ∧ w.model.types.lookup "Ghost" = none ∧
      w.model.Admits "Crate" none "crate" ⟨1⟩ ∧ c.id = ⟨0, 0⟩ ∧
      ((language.engine 2).invokeInitializer c.id c.initializer []).outcome c.begun =
        some (.error collapse, w₂) ∧
      (∀ y, w₂.model.arena.Under ⟨0, 0⟩ y ↔ y ∈ crate) ∧
      (∀ y ∈ crate, (w₂.model.arena.get? y).isSome = true) ∧
      (w₂.model.arena.get? ⟨3, 0⟩).isSome = true := by
  have hrun : ((Body.exec language 3 build).outcome { host := () }).any (fun built =>
      built.2.model.types.lookup "Ghost" = none &&
      built.2.model.types.lookup "Crate" = some ⟨1⟩ &&
      (built.2.model.types.definition? ⟨1⟩).any (·.isAbstract) = false &&
      built.2.model.arena.roots = [] &&
      ((place ⟨1⟩ none "crate" false).outcome built.2).any fun placed =>
        placed.1.toOption = some ⟨0, 0⟩ &&
        (placed.2.finds ⟨1⟩ Engine.initializeName).any fun found =>
          (((language.engine 2).invokeInitializer ⟨0, 0⟩ found.2 []).outcome
            (placed.2.lookingUp ⟨1⟩ Engine.initializeName)).any fun failed =>
              hasCollapsed failed.1 &&
              failed.2.model.arena.childrenOf ⟨0, 0⟩ = [⟨1, 0⟩] &&
              failed.2.model.arena.childrenOf ⟨1, 0⟩ = [⟨2, 0⟩] &&
              failed.2.model.arena.childrenOf ⟨2, 0⟩ = [] &&
              (crate.all fun y => (failed.2.model.arena.get? y).isSome) &&
              (failed.2.model.arena.get? ⟨3, 0⟩).isSome) = true := by
    decide +kernel
  simp only [Option.any_eq_true, Bool.and_eq_true, decide_eq_true_eq, Prod.exists,
    List.all_eq_true] at hrun
  obtain ⟨r, w, hr, ⟨⟨⟨hghost, hcrate⟩, hconcrete⟩, hroots⟩, r', placed, hplace, hid, owner, m,
    hfound, r'', w₂, hinit, ⟨⟨⟨⟨hcollapsed, hlid⟩, hhandle⟩, hend⟩, hthere⟩, hspare⟩ := hrun
  obtain _ | id := r'
  · cases hid
  cases hid
  obtain err | _ := r''
  rotate_left
  · cases hcollapsed
  obtain rfl : err = collapse := of_decide_eq_true hcollapsed
  refine ⟨w, w₂, ⟨⟨0, 0⟩, placed, owner, m, hplace, hfound⟩, ?_, hghost, ⟨⟨hcrate, hconcrete⟩, rfl,
    nofun, ?_⟩, rfl, hinit, fun y => under_crate hlid hhandle hend, hthere, hspare⟩
  · have hstart : Reachable [] ({ host := () } : World Unit Unit).model := .empty rfl rfl
    exact hstart.after_exec hr
  · intro c hc
    rw [Arena.siblings, hroots] at hc
    cases hc

end Collapse

/-- A crate collapses when it is made.  The crate, its lid and the handle of the lid are gone; the
spare part is still there.  Something of an unknown type is not made at all. -/
theorem Language.failed_instantiation_collapse :
    ∃ (w w' w₂ : World Unit Unit), Reachable [] w.model ∧
      (perform Collapse.language 3 (.instantiate "Crate" none "crate" [])).outcome w =
        some (.error Collapse.collapse, w') ∧
      w₂.model.Cleared w'.model ⟨0, 0⟩ w.model.arena.lastOrder ∧
      (∀ y ∈ Collapse.crate,
        (w₂.model.arena.get? y).isSome = true ∧ w'.model.arena.get? y = none) ∧
      (w'.model.arena.get? ⟨3, 0⟩).isSome = true ∧
      ∃ err w'', (perform Collapse.language 3 (.instantiate "Ghost" none "ghost" [])).outcome w =
        some (.error err, w'') ∧ w.Untouched w'' := by
  obtain ⟨w, w₂, c, hw, hghost, hadmits, hid, hinit, hcrate, hthere, hspare⟩ :=
    Collapse.exists_collapsing
  obtain ⟨-, hcollapses, -⟩ :=
    Language.failed_instantiation Collapse.language 2 hw "Crate" none "crate" []
  obtain ⟨hrefused, -, -⟩ :=
    Language.failed_instantiation Collapse.language 2 hw "Ghost" none "ghost" []
  obtain ⟨w', hfailed, hcleared, -, -⟩ := hcollapses c hadmits hinit
  rw [hid] at hcleared
  refine ⟨w, w', w₂, hw, hfailed, hcleared, fun y hy => ?_, ?_, hrefused fun type hghostly => ?_⟩
  · exact ⟨hthere y hy, hcleared.gone y ((hcrate y).mpr hy)⟩
  · have hbeside : ¬w₂.model.arena.Under ⟨0, 0⟩ ⟨3, 0⟩ := fun h =>
      absurd ((hcrate _).mp h) (by decide)
    rw [hcleared.elsewhere _ hbeside, Option.isSome_map]
    exact hspare
  · have hknown := hghostly.instantiable.1
    rw [hghost] at hknown
    cases hknown

end ProductModel
