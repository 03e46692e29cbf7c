import ProductModel.Engine.Perform

/-!
# What actions come to

An action either has no outcome in a world, because the allowance for nesting is used up, or comes
to a result or an error in a later world.  `Action.Always x w ok err` says that whatever `x` comes
to from `w` is a result that satisfies `ok` or an error that satisfies `err`.

The statements below say what it takes, action by action.  They turn a question about a composed
action into questions about its steps, so that no later proof opens the monad.
-/

namespace ProductModel

section Lookup

variable {β σ : Type}

/-- **What a method lookup finds** in a world. -/
def World.finds (w : World β σ) (type : TypeId) (name : Symbol) : FoundMethod β :=
  if w.config.dispatchCache then (w.cache.lookup w.model.types type name).1
  else w.model.types.findMethod type name

/-- The world after a method lookup. -/
def World.lookingUp (w : World β σ) (type : TypeId) (name : Symbol) : World β σ :=
  if w.config.dispatchCache then { w with cache := (w.cache.lookup w.model.types type name).2 }
  else w

@[simp] theorem World.model_lookingUp (w : World β σ) (type : TypeId) (name : Symbol) :
    (w.lookingUp type name).model = w.model := by
  unfold World.lookingUp
  split <;> rfl

@[simp] theorem World.config_lookingUp (w : World β σ) (type : TypeId) (name : Symbol) :
    (w.lookingUp type name).config = w.config := by
  unfold World.lookingUp
  split <;> rfl

@[simp] theorem World.host_lookingUp (w : World β σ) (type : TypeId) (name : Symbol) :
    (w.lookingUp type name).host = w.host := by
  unfold World.lookingUp
  split <;> rfl

end Lookup

namespace Action

variable {β σ α γ : Type}

/-- A result is known from what is left of it without the errors. -/
theorem eq_ok_of_toOption {r : Except ModelError α} {a : α} (h : r.toOption = some a) :
    r = .ok a := by
  cases r with
  | ok _ => exact congrArg _ (Option.some.inj h)
  | error _ => cases h

/-- **Whatever an action comes to** from a world: a result with `ok`, or an error with `err`. -/
def Always (x : Action β σ α) (w : World β σ) (ok : α → World β σ → Prop)
    (err : ModelError → World β σ → Prop) : Prop :=
  ∀ r w', x.outcome w = some (r, w') →
    match r with
    | .ok a => ok a w'
    | .error e => err e w'

section Rules

variable {ok : α → World β σ → Prop} {err : ModelError → World β σ → Prop} {w : World β σ}

theorem Always.mono {x : Action β σ α} {ok' : α → World β σ → Prop}
    {err' : ModelError → World β σ → Prop} (h : x.Always w ok err)
    (hok : ∀ a w', ok a w' → ok' a w') (herr : ∀ e w', err e w' → err' e w') :
    x.Always w ok' err' := by
  intro r w' hr
  have hpost := h r w' hr
  cases r with
  | ok a => exact hok a w' hpost
  | error e => exact herr e w' hpost

/-- An outcome that is known is one of those that `Always` speaks of. -/
theorem Always.of_ok {x : Action β σ α} (h : x.Always w ok err) {a : α} {w' : World β σ}
    (hr : x.outcome w = some (.ok a, w')) : ok a w' := h _ _ hr

theorem Always.of_error {x : Action β σ α} (h : x.Always w ok err) {e : ModelError}
    {w' : World β σ} (hr : x.outcome w = some (.error e, w')) : err e w' := h _ _ hr

@[simp] theorem always_exhausted : (exhausted : Action β σ α).Always w ok err := by
  intro r w' h
  cases h

@[simp] theorem always_pure (a : α) : (pure a : Action β σ α).Always w ok err ↔ ok a w := by
  constructor
  · intro h
    exact h.of_ok rfl
  · intro h r w' hr
    cases hr
    exact h

@[simp] theorem always_throw (e : ModelError) :
    (throw e : Action β σ α).Always w ok err ↔ err e w := by
  constructor
  · intro h
    exact h.of_error rfl
  · intro h r w' hr
    cases hr
    exact h

/-- The outcomes of a step and what follows it. -/
theorem outcome_bind (x : Action β σ γ) (f : γ → Action β σ α) (w : World β σ) :
    (x >>= f).outcome w =
      match x.outcome w with
      | none => none
      | some (.ok a, w') => (f a).outcome w'
      | some (.error e, w') => some (.error e, w') := by
  unfold outcome ExceptT.run StateT.run
  simp only [bind, ExceptT.bind, ExceptT.mk, StateT.bind, ExceptT.bindCont]
  cases h : (x : StateT (World β σ) Option (Except ModelError γ)) w with
  | none => rfl
  | some p =>
    obtain ⟨r, w'⟩ := p
    cases r <;> rfl

/-- What follows a step with a result. -/
theorem outcome_bind_ok {x : Action β σ γ} {f : γ → Action β σ α} {a : γ} {w' : World β σ}
    (h : x.outcome w = some (.ok a, w')) : (x >>= f).outcome w = (f a).outcome w' := by
  rw [outcome_bind, h]

theorem always_bind_of_ok {x : Action β σ γ} {f : γ → Action β σ α} {a : γ} {w' : World β σ}
    (h : x.outcome w = some (.ok a, w')) :
    (x >>= f).Always w ok err ↔ (f a).Always w' ok err := by
  unfold Always
  rw [outcome_bind_ok h]

/-- A step with an error is the last one. -/
theorem outcome_bind_error {x : Action β σ γ} {f : γ → Action β σ α} {e : ModelError}
    {w' : World β σ} (h : x.outcome w = some (.error e, w')) :
    (x >>= f).outcome w = some (.error e, w') := by
  rw [outcome_bind, h]

/-- What has no outcome comes to none with what follows it. -/
theorem outcome_bind_none {x : Action β σ γ} {f : γ → Action β σ α} (h : x.outcome w = none) :
    (x >>= f).outcome w = none := by
  rw [outcome_bind, h]

/-- **What was come to in two steps**: the first one failed, or the second one came to it. -/
theorem exists_of_bind {x : Action β σ γ} {f : γ → Action β σ α} {r : Except ModelError α}
    {w' : World β σ} (h : (x >>= f).outcome w = some (r, w')) :
    (∃ e, r = .error e ∧ x.outcome w = some (.error e, w')) ∨
      ∃ c u, x.outcome w = some (.ok c, u) ∧ (f c).outcome u = some (r, w') := by
  rw [outcome_bind] at h
  cases hx : x.outcome w with
  | none =>
    rw [hx] at h
    cases h
  | some p =>
    obtain ⟨r', u⟩ := p
    rw [hx] at h
    cases r' with
    | ok c => exact Or.inr ⟨c, u, rfl, h⟩
    | error e =>
      cases h
      exact Or.inl ⟨e, rfl, rfl⟩

/-- A result that was come to in two steps. -/
theorem exists_of_bind_ok {x : Action β σ γ} {f : γ → Action β σ α} {a : α} {w' : World β σ}
    (h : (x >>= f).outcome w = some (.ok a, w')) :
    ∃ c u, x.outcome w = some (.ok c, u) ∧ (f c).outcome u = some (.ok a, w') := by
  rcases exists_of_bind h with ⟨e, heq, -⟩ | hsteps
  · cases heq
  · exact hsteps

/-- An error that was come to in two steps, in one of them. -/
theorem exists_of_bind_error {x : Action β σ γ} {f : γ → Action β σ α} {e : ModelError}
    {w' : World β σ} (h : (x >>= f).outcome w = some (.error e, w')) :
    x.outcome w = some (.error e, w') ∨
      ∃ c u, x.outcome w = some (.ok c, u) ∧ (f c).outcome u = some (.error e, w') := by
  rcases exists_of_bind h with ⟨e', heq, hfailed⟩ | hsteps
  · cases heq
    exact Or.inl hfailed
  · exact Or.inr hsteps

/-- **A step and what follows it.** -/
theorem always_bind (x : Action β σ γ) (f : γ → Action β σ α) :
    (x >>= f).Always w ok err ↔ x.Always w (fun a w' => (f a).Always w' ok err) err := by
  constructor
  · intro h r w' hr
    cases r with
    | ok a =>
      intro r' w'' hr'
      refine h r' w'' ?_
      rw [outcome_bind, hr]
      exact hr'
    | error e =>
      refine h.of_error ?_
      rw [outcome_bind, hr]
  · intro h r w' hr
    rw [outcome_bind] at hr
    cases hx : x.outcome w with
    | none => simp [hx] at hr
    | some p =>
      obtain ⟨r', w''⟩ := p
      cases r' with
      | ok a =>
        rw [hx] at hr
        exact h.of_ok hx r w' hr
      | error e =>
        rw [hx] at hr
        cases hr
        exact h.of_error hx

/-- The outcomes of an attempt: those of the action, and none of them is an error. -/
theorem outcome_attempt (x : Action β σ α) (w : World β σ) :
    (attempt x).outcome w = (x.outcome w).map fun p => (.ok p.1, p.2) := by
  unfold outcome attempt ExceptT.run StateT.run
  simp only [bind, ExceptT.mk, StateT.bind]
  cases (x : StateT (World β σ) Option (Except ModelError α)) w with
  | none => rfl
  | some p => rfl

theorem always_attempt {ok : Except ModelError α → World β σ → Prop} (x : Action β σ α) :
    (attempt x).Always w ok err ↔
      x.Always w (fun a => ok (.ok a)) (fun e => ok (.error e)) := by
  constructor
  · intro h r w' hr
    have hpost : ok r w' := h.of_ok (by rw [outcome_attempt, hr]; rfl)
    cases r <;> exact hpost
  · intro h r w' hr
    rw [outcome_attempt, Option.map_eq_some_iff] at hr
    obtain ⟨⟨r', w''⟩, hx, hr⟩ := hr
    cases hr
    have hpost := h r' w'' hx
    cases r' <;> exact hpost

theorem always_ofExcept (r : Except ModelError α) :
    (ofExcept r : Action β σ α).Always w ok err ↔
      (∀ a, r = .ok a → ok a w) ∧ (∀ e, r = .error e → err e w) := by
  cases r <;> simp [ofExcept]

@[simp] theorem always_get {ok : World β σ → World β σ → Prop} :
    (get : Action β σ (World β σ)).Always w ok err ↔ ok w w := by
  constructor
  · intro h
    exact h.of_ok rfl
  · intro h r w' hr
    cases hr
    exact h

@[simp] theorem always_set {ok : PUnit → World β σ → Prop} (v : World β σ) :
    (set v : Action β σ PUnit).Always w ok err ↔ ok ⟨⟩ v := by
  constructor
  · intro h
    exact h.of_ok rfl
  · intro h r w' hr
    cases hr
    exact h

@[simp] theorem always_modify {ok : PUnit → World β σ → Prop} (f : World β σ → World β σ) :
    (modify f : Action β σ PUnit).Always w ok err ↔ ok ⟨⟩ (f w) := by
  constructor
  · intro h
    exact h.of_ok rfl
  · intro h r w' hr
    cases hr
    exact h

/-! ### Steps on the parts of a world -/

@[simp] theorem always_model {ok : Model β → World β σ → Prop} :
    (model : Action β σ (Model β)).Always w ok err ↔ ok w.model w := by
  rw [model, always_bind, always_get, always_pure]

@[simp] theorem always_config {ok : Config → World β σ → Prop} :
    (config : Action β σ Config).Always w ok err ↔ ok w.config w := by
  rw [config, always_bind, always_get, always_pure]

@[simp] theorem always_modifyModel {ok : Unit → World β σ → Prop} (f : Model β → Model β) :
    (modifyModel f : Action β σ Unit).Always w ok err ↔
      ok () { w with model := f w.model } := by
  rw [modifyModel, always_modify]

theorem always_ask (f : Model β → Except ModelError α) :
    (ask f : Action β σ α).Always w ok err ↔
      (∀ a, f w.model = .ok a → ok a w) ∧ (∀ e, f w.model = .error e → err e w) := by
  rw [ask, always_bind, always_model, always_ofExcept]

/-- An instance that is there is found. -/
theorem outcome_find {id : InstanceId} {i : Instance β} (hi : w.model.arena.get? id = some i) :
    (find id : Action β σ (Instance β)).outcome w = some (.ok i, w) := by
  have hfind : w.model.arena.find id = .ok i := by rw [Arena.find, hi]
  show (ofExcept (w.model.arena.find id) : Action β σ _).outcome w = _
  rw [hfind]
  rfl

/-- An instance that is there is changed. -/
theorem outcome_update {id : InstanceId} {i : Instance β} (hi : w.model.arena.get? id = some i)
    (f : Instance β → Instance β) :
    (update id f : Action β σ Unit).outcome w =
      some (.ok (), { w with model := w.model.modify id f }) := by
  rw [update, outcome_bind_ok (outcome_find hi)]
  rfl

/-- **Looking an instance up**: it is there, or the handle is out of date. -/
theorem always_find {ok : Instance β → World β σ → Prop} (id : InstanceId) :
    (find id : Action β σ (Instance β)).Always w ok err ↔
      (∀ i, w.model.arena.get? id = some i → ok i w) ∧
        (w.model.arena.get? id = none → err (Arena.destroyedError id) w) := by
  rw [find, always_ask]
  cases h : w.model.arena.get? id with
  | none => simp [Arena.find, h]
  | some i => simp [Arena.find, h]

theorem always_update {ok : Unit → World β σ → Prop} (id : InstanceId)
    (f : Instance β → Instance β) :
    (update id f : Action β σ Unit).Always w ok err ↔
      (∀ i, w.model.arena.get? id = some i → ok () { w with model := w.model.modify id f }) ∧
        (w.model.arena.get? id = none → err (Arena.destroyedError id) w) := by
  rw [update, always_bind, always_find]
  simp

@[simp] theorem always_updateIfThere {ok : Unit → World β σ → Prop} (id : InstanceId)
    (f : Instance β → Instance β) :
    (updateIfThere id f : Action β σ Unit).Always w ok err ↔
      ok () { w with model := w.model.modify id f } := by
  rw [updateIfThere, always_modifyModel]

theorem always_typeOf {ok : TypeId → World β σ → Prop} (id : InstanceId) :
    (typeOf id : Action β σ TypeId).Always w ok err ↔
      (∀ i, w.model.arena.get? id = some i → ok i.type w) ∧
        (w.model.arena.get? id = none → err (Arena.destroyedError id) w) := by
  rw [typeOf, always_bind, always_find]
  simp

/-- A name in a message is made, and the world is the one that remembers it. -/
theorem outcome_describe (id : InstanceId) (w : World β σ) :
    (describe id : Action β σ String).outcome w = some (.ok (w.model.arena.describe id).1,
      { w with model := { w.model with arena := (w.model.arena.describe id).2 } }) := rfl

/-- The name of an instance in messages is remembered on the way. -/
@[simp] theorem always_describe {ok : String → World β σ → Prop} (id : InstanceId) :
    (describe id : Action β σ String).Always w ok err ↔
      ok (w.model.arena.describe id).1
        { w with model := { w.model with arena := (w.model.arena.describe id).2 } } := by
  rw [describe, always_bind, always_model]
  simp only [always_bind, always_modifyModel, always_pure]

/-- An absolute name that there is is answered, and remembered on the way. -/
theorem outcome_absoluteName {id : InstanceId} {name : String} {arena : Arena β}
    (h : w.model.arena.absoluteName id = .ok (name, arena)) :
    (absoluteName id : Action β σ String).outcome w =
      some (.ok name, { w with model := { w.model with arena } }) := by
  have hask : (ask (·.arena.absoluteName id) : Action β σ (String × Arena β)).outcome w =
      some (.ok (name, arena), w) := by
    show (ofExcept (w.model.arena.absoluteName id) : Action β σ _).outcome w = _
    rw [h]
    rfl
  rw [absoluteName, outcome_bind, hask]
  rfl

/-- The absolute name is remembered on the way, as a description is. -/
theorem always_absoluteName {ok : String → World β σ → Prop} (id : InstanceId) :
    (absoluteName id : Action β σ String).Always w ok err ↔
      (∀ name arena, w.model.arena.absoluteName id = .ok (name, arena) →
          ok name { w with model := { w.model with arena } }) ∧
        (∀ e, w.model.arena.absoluteName id = .error e → err e w) := by
  rw [absoluteName, always_bind, always_ask]
  simp only [always_bind, always_modifyModel, always_pure, Prod.forall]

/-- **A method lookup** changes the cache alone, and nothing when the cache is turned off. -/
theorem always_findMethod {ok : FoundMethod β → World β σ → Prop} (id : TypeId)
    (name : Symbol) :
    (findMethod id name : Action β σ (FoundMethod β)).Always w ok err ↔
      if w.config.dispatchCache then
        ok (w.cache.lookup w.model.types id name).1
          { w with cache := (w.cache.lookup w.model.types id name).2 }
      else ok (w.model.types.findMethod id name) w := by
  rw [findMethod, always_bind, always_get]
  cases w.config.dispatchCache with
  | true => simp only [if_true, always_bind, always_set, always_pure]
  | false => simp only [Bool.false_eq_true, if_false, always_pure]

/-- What a method lookup comes to in a world. -/
theorem outcome_findMethod (type : TypeId) (name : Symbol) :
    (findMethod type name : Action β σ (FoundMethod β)).outcome w =
      some (.ok (w.finds type name), w.lookingUp type name) := by
  have hget : (get : Action β σ (World β σ)).outcome w = some (.ok w, w) := rfl
  unfold findMethod World.finds World.lookingUp
  rw [outcome_bind, hget]
  dsimp only
  split <;> rfl

/-! ### Steps beside a log -/

/-- An action beside a log comes to what it comes to without. -/
theorem outcome_withLog (x : Action β σ α) (w : World β (σ × ProblemLog)) :
    (withLog x).outcome w = (x.outcome { w with host := w.host.1 }).map
      fun p => (p.1, { p.2 with host := (p.2.host, w.host.2) }) := by
  show withLog x w = _
  unfold withLog ExceptT.mk
  dsimp only
  cases x.outcome { w with host := w.host.1 } <;> rfl

/-- An action with a log of its own gives the log beside what it comes to. -/
theorem outcome_collecting (log : ProblemLog) (x : Logged β σ α) (w : World β σ) :
    (collecting log x).outcome w = (x.outcome { w with host := (w.host, log) }).map
      fun p => (Except.ok (p.1, p.2.host.2), { p.2 with host := p.2.host.1 }) := by
  show collecting log x w = _
  unfold collecting ExceptT.mk
  dsimp only
  cases x.outcome { w with host := (w.host, log) } <;> rfl

end Rules

end Action

end ProductModel
