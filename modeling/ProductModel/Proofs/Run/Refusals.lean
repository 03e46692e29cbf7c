import ProductModel.Proofs.Removal
import ProductModel.Proofs.Run.Outcomes

/-!
# What creations check

A creation looks before it changes anything.  Every check either passes, and leaves the world as it
is, or refuses with an error, and then nothing but remembered names differs (`Action.Refuses`).
`Model.Admits` says when all checks of an instantiation pass; the instantiation is then the creation
alone (`Engine.outcome_instantiate`), and otherwise it is refused
(`Engine.instantiate_refuses`).

The second part says in which ways a creation fails after that: there is no room for the instance,
or the initializer of the instance fails (`Engine.NewInstance`).
-/

namespace ProductModel

open ProductModel.Action

variable {β σ α γ : Type} {w w' : World β σ} {id father : InstanceId} {i : Instance β}
  {typeName name operation : String} {type : TypeId}

/-! ## Checks that refuse -/

namespace Action

/-- **A step refuses**: it is an error, and nothing but remembered names differs. -/
def Refuses (x : Action β σ α) (w : World β σ) : Prop :=
  ∃ err w', x.outcome w = some (.error err, w') ∧ w.Remembers w'

/-- What follows a step that refuses is not reached. -/
theorem Refuses.bind {x : Action β σ γ} {f : γ → Action β σ α} (h : x.Refuses w) :
    (x >>= f).Refuses w := by
  obtain ⟨err, w', hr, hsame⟩ := h
  exact ⟨err, w', outcome_bind_error hr, hsame⟩

/-- A step refuses after one that passes. -/
theorem Refuses.after {x : Action β σ γ} {f : γ → Action β σ α} {c : γ}
    (hx : x.outcome w = some (.ok c, w)) (h : (f c).Refuses w) : (x >>= f).Refuses w := by
  obtain ⟨err, w', hr, hsame⟩ := h
  exact ⟨err, w', (outcome_bind_ok hx).trans hr, hsame⟩

theorem refuses_throw (err : ModelError) (w : World β σ) :
    (throw err : Action β σ α).Refuses w := ⟨err, w, rfl, .refl w⟩

/-- A message with the name of an instance refuses. -/
theorem refuses_describe (id : InstanceId) (f : String → ModelError) (w : World β σ) :
    (describe id >>= fun name => throw (f name) : Action β σ α).Refuses w :=
  ⟨_, _, outcome_bind_ok (outcome_describe id w), _, Arena.onlyMemos_describe id, rfl⟩

theorem refuses_describe_bind (id : InstanceId) (f : String → ModelError) (g : γ → Action β σ α)
    (w : World β σ) :
    (describe id >>= fun name => throw (f name) >>= g : Action β σ α).Refuses w := by
  obtain ⟨err, w', hr, hsame⟩ := refuses_describe (α := γ) id f w
  refine ⟨err, w', ?_, hsame⟩
  rw [outcome_bind_ok (outcome_describe id w)] at hr ⊢
  exact outcome_bind_error hr

end Action

/-! ## What a creation asks for -/

/-- **An instance that accepts children**: it is being initialized or live, and not busy. -/
def Model.AcceptsChildren (m : Model β) (father : InstanceId) : Prop :=
  ∃ i, m.arena.get? father = some i ∧ (i.state = .initializing ∨ i.state = .live) ∧ i.busy = 0

/-- **A type that can have instances**: it is there and not abstract. -/
def Model.Instantiable (m : Model β) (typeName : String) (type : TypeId) : Prop :=
  m.types.lookup typeName = some type ∧ (m.types.definition? type).any (·.isAbstract) = false

/-- **What an instantiation asks for.** -/
structure Model.Admits (m : Model β) (typeName : String) (father : Option InstanceId)
    (name : String) (type : TypeId) : Prop where
  instantiable : m.Instantiable typeName type
  valid : Naming.validate name = .ok ()
  accepts : ∀ f, father = some f → m.AcceptsChildren f
  free : m.arena.NameFree father name

theorem outcome_model (w : World β σ) :
    (Action.model : Action β σ (Model β)).outcome w = some (.ok w.model, w) := rfl

theorem outcome_ask {f : Model β → Except ModelError α} {a : α} (h : f w.model = .ok a) :
    (ask f : Action β σ α).outcome w = some (.ok a, w) := by
  show (Action.ofExcept (f w.model) : Action β σ α).outcome w = _
  rw [h]
  rfl

theorem refuses_ask {f : Model β → Except ModelError α} {err : ModelError}
    (h : f w.model = .error err) : (ask f : Action β σ α).Refuses w :=
  ⟨err, w, by
    show (Action.ofExcept (f w.model) : Action β σ α).outcome w = _
    rw [h]
    rfl, .refl w⟩

/-- What is gone is not found. -/
theorem refuses_find (h : w.model.arena.get? id = none) :
    (find id : Action β σ (Instance β)).Refuses w := by
  have herror : w.model.arena.find id = .error (Arena.destroyedError id) := by rw [Arena.find, h]
  exact refuses_ask herror

theorem refuses_ensureNotBusy (h : ∀ i, w.model.arena.get? id = some i → i.busy ≠ 0) :
    (ensureNotBusy id operation : Action β σ Unit).Refuses w := by
  unfold ensureNotBusy
  cases hi : w.model.arena.get? id with
  | none => exact (refuses_find hi).bind
  | some i =>
    refine .after (outcome_find hi) ?_
    have hbusy : i.isBusy = true := decide_eq_true (Nat.pos_of_ne_zero (h i hi))
    rw [if_pos hbusy]
    exact refuses_describe id _ w

theorem outcome_ensureAcceptsChildren_of (h : w.model.AcceptsChildren father) :
    (ensureAcceptsChildren father operation : Action β σ Unit).outcome w = some (.ok (), w) := by
  obtain ⟨i, hi, hstate, hidle⟩ := h
  unfold ensureAcceptsChildren
  rw [outcome_bind_ok (outcome_find hi), if_neg (by rcases hstate with h | h <;> simp [h])]
  exact outcome_ensureNotBusy hi hidle operation

theorem refuses_ensureAcceptsChildren (h : ¬w.model.AcceptsChildren father) :
    (ensureAcceptsChildren father operation : Action β σ Unit).Refuses w := by
  unfold ensureAcceptsChildren
  cases hi : w.model.arena.get? father with
  | none => exact (refuses_find hi).bind
  | some i =>
    refine .after (outcome_find hi) ?_
    dsimp only
    split
    · exact refuses_describe_bind father _ _ w
    · rename_i hstate
      refine refuses_ensureNotBusy fun j hj hidle => h ⟨j, hj, ?_, hidle⟩
      rw [hi] at hj
      cases hj
      exact Decidable.byContradiction fun hneither => hstate (not_or.mp hneither)

theorem outcome_instantiableType_of (h : w.model.Instantiable typeName type) :
    (instantiableType typeName : Action β σ TypeId).outcome w = some (.ok type, w) := by
  obtain ⟨htype, hconcrete⟩ := h
  unfold instantiableType
  rw [outcome_bind_ok (outcome_ask (by rw [Model.lookupType, htype])),
    outcome_bind_ok (outcome_model w)]
  dsimp only
  rw [if_neg (Bool.eq_false_iff.mp hconcrete)]
  rfl

theorem refuses_instantiableType (h : ∀ type, ¬w.model.Instantiable typeName type) :
    (instantiableType typeName : Action β σ TypeId).Refuses w := by
  unfold instantiableType
  cases htype : w.model.types.lookup typeName with
  | none => exact (refuses_ask (by rw [Model.lookupType, htype])).bind
  | some type =>
    refine .after (outcome_ask (by rw [Model.lookupType, htype])) (.after (outcome_model w) ?_)
    have habstract : (w.model.types.definition? type).any (·.isAbstract) = true :=
      Bool.not_eq_false _ ▸ fun hconcrete => h type ⟨htype, hconcrete⟩
    dsimp only
    rw [if_pos habstract]
    exact (refuses_throw _ w).bind

/-- A name is free if no instance is found by it. -/
theorem nameFree_iff {father : Option InstanceId} :
    w.model.arena.NameFree father name ↔
      w.model.arena.findNamed (w.model.arena.siblings father) name = none := by
  rw [← Option.not_isSome_iff_eq_none, findNamed_isSome]
  simp only [Arena.NameFree, not_exists, not_and]

theorem outcome_ensureNameFree_of {father : Option InstanceId}
    (h : w.model.arena.NameFree father name) :
    (ensureNameFree father name : Action β σ Unit).outcome w = some (.ok (), w) := by
  unfold ensureNameFree
  rw [outcome_bind_ok (outcome_model w)]
  cases father with
  | none =>
    have hnone : w.model.arena.rootNamed name = none := nameFree_iff.mp h
    dsimp only
    rw [hnone]
    rfl
  | some f =>
    have hnone : w.model.arena.childNamed f name = none := nameFree_iff.mp h
    dsimp only
    rw [hnone]
    rfl

theorem refuses_ensureNameFree {father : Option InstanceId}
    (h : ¬w.model.arena.NameFree father name) :
    (ensureNameFree father name : Action β σ Unit).Refuses w := by
  rw [nameFree_iff, ← ne_eq, Option.ne_none_iff_isSome] at h
  unfold ensureNameFree
  refine .after (outcome_model w) ?_
  cases father with
  | none =>
    have hsome : (w.model.arena.rootNamed name).isSome = true := h
    dsimp only
    rw [if_pos hsome]
    exact refuses_throw _ w
  | some f =>
    have hsome : (w.model.arena.childNamed f name).isSome = true := h
    dsimp only
    rw [if_pos hsome]
    exact refuses_describe f _ w

theorem outcome_validate_of (h : Naming.validate name = .ok ()) :
    (Action.ofExcept ((Naming.validate name).mapError .creation) : Action β σ Unit).outcome w =
      some (.ok (), w) := by
  rw [h]
  rfl

theorem refuses_validate (h : Naming.validate name ≠ .ok ()) :
    (Action.ofExcept ((Naming.validate name).mapError .creation) : Action β σ Unit).Refuses w := by
  cases hvalid : Naming.validate name with
  | ok _ => exact absurd hvalid h
  | error err => exact refuses_throw _ w

namespace Engine

variable {e : Engine β σ} {args : List Value}

/-- **An instantiation that is admitted** is a creation. -/
theorem outcome_instantiate {father : Option InstanceId}
    (h : w.model.Admits typeName father name type) :
    (e.instantiate typeName father name args).outcome w =
      (e.create type father name args false).outcome w := by
  unfold instantiate
  rw [outcome_bind_ok (outcome_instantiableType_of h.instantiable),
    outcome_bind_ok (outcome_validate_of h.valid)]
  cases father with
  | none => exact outcome_bind_ok (outcome_ensureNameFree_of h.free)
  | some f =>
    dsimp only
    rw [outcome_bind_ok (outcome_ensureAcceptsChildren_of (h.accepts f rfl)),
      outcome_bind_ok (outcome_ensureNameFree_of h.free)]

/-- **An instantiation that is not admitted** refuses. -/
theorem instantiate_refuses {father : Option InstanceId}
    (h : ∀ type, ¬w.model.Admits typeName father name type) :
    (e.instantiate typeName father name args).Refuses w := by
  unfold instantiate
  -- The checks are taken in turn; behind one that passes the world is the same as before.
  by_cases htype : ∃ type, w.model.Instantiable typeName type
  rotate_left
  · exact (refuses_instantiableType (not_exists.mp htype)).bind
  obtain ⟨type, htype⟩ := htype
  refine .after (outcome_instantiableType_of htype) ?_
  by_cases hvalid : Naming.validate name = .ok ()
  rotate_left
  · exact (refuses_validate hvalid).bind
  refine .after (outcome_validate_of hvalid) ?_
  by_cases haccepts : ∀ f, father = some f → w.model.AcceptsChildren f
  · have hfree : ¬w.model.arena.NameFree father name :=
      fun hfree => h type ⟨htype, hvalid, haccepts, hfree⟩
    cases father with
    | none => exact (refuses_ensureNameFree hfree).bind
    | some f =>
      exact .after (outcome_ensureAcceptsChildren_of (haccepts f rfl))
        (refuses_ensureNameFree hfree).bind
  · obtain ⟨f, himp⟩ := Classical.not_forall.mp haccepts
    obtain ⟨rfl, hf⟩ := Classical.not_imp.mp himp
    exact (refuses_ensureAcceptsChildren hf).bind

/-! ## How a creation fails -/

/-- **A new instance whose initializer is to run.** -/
structure NewInstance (w : World β σ) (type : TypeId) (father : Option InstanceId) (name : String)
    (element : Bool) where
  id : InstanceId
  placed : World β σ
  owner : TypeId
  initializer : Method β
  placing : (place type father name element : Action β σ InstanceId).outcome w =
    some (.ok id, placed)
  found : placed.finds type initializeName = some (owner, initializer)

/-- The world in which the initializer begins. -/
def NewInstance.begun {father : Option InstanceId} {element : Bool}
    (c : NewInstance w type father name element) : World β σ :=
  c.placed.lookingUp type initializeName

section Failures

variable {father : Option InstanceId} {element : Bool} {err : ModelError}

/-- **An initializer that fails** has its instance discarded, and its error is that of the
creation. -/
theorem NewInstance.outcome_create (c : NewInstance w type father name element)
    (h : (e.invokeInitializer c.id c.initializer args).outcome c.begun = some (.error err, w')) :
    (e.create type father name args element).outcome w =
      some (.error err, w'.discarding c.id) := by
  have hattempt : (attempt (e.invokeInitializer c.id c.initializer args)).outcome c.begun =
      some (.ok (.error err), w') := by
    rw [outcome_attempt, h]
    rfl
  have hinit : (e.initializeWith c.id args (c.placed.finds type initializeName)).outcome c.begun =
      some (.error err, w'.discarding c.id) := by
    rw [c.found]
    unfold initializeWith runInitializer
    rw [outcome_bind_ok hattempt]
    rfl
  unfold create
  rw [outcome_bind_ok c.placing, outcome_bind_ok (outcome_findMethod _ _)]
  exact outcome_bind_error hinit

/-- **A creation that fails** found no room, or its initializer failed. -/
theorem exists_of_create_error
    (h : (e.create type father name args element).outcome w = some (.error err, w')) :
    (place type father name element : Action β σ InstanceId).outcome w = some (.error err, w') ∨
      ∃ (c : NewInstance w type father name element) (w₂ : World β σ),
        (e.invokeInitializer c.id c.initializer args).outcome c.begun = some (.error err, w₂) ∧
          w' = w₂.discarding c.id := by
  unfold create at h
  obtain hplace | ⟨id, placed, hplace, h⟩ := exists_of_bind_error h
  · exact Or.inl hplace
  rw [outcome_bind_ok (outcome_findMethod _ _)] at h
  refine Or.inr ?_
  cases hfound : placed.finds type initializeName with
  | none =>
    rw [hfound] at h
    cases h
  | some found =>
    obtain ⟨owner, m⟩ := found
    let c : NewInstance w type father name element := ⟨id, placed, owner, m, hplace, hfound⟩
    rw [hfound] at h
    obtain hinit | ⟨-, w₃, -, h⟩ := exists_of_bind_error h
    · obtain hattempt | ⟨r, w₂, hattempt, hend⟩ := exists_of_bind_error hinit
      · -- An attempt has no errors.
        rw [outcome_attempt, Option.map_eq_some_iff] at hattempt
        obtain ⟨_, -, heq⟩ := hattempt
        cases heq
      rw [outcome_attempt, Option.map_eq_some_iff] at hattempt
      obtain ⟨⟨r, w₂⟩, hrun, heq⟩ := hattempt
      cases heq
      cases r with
      | ok v => cases hend
      | error err' =>
        cases hend
        exact ⟨c, w₂, hrun, rfl⟩
    · cases h

end Failures

end Engine

end ProductModel
