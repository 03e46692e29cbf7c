import ProductModel.Engine.Perform
import ProductModel.Proofs.Outcome
import ProductModel.Proofs.Registry.Lookups

/-!
# Actions in worlds that are alike

Operations look at the model, at one setting, and at what method lookups find; bodies alone look at
the state of their language.  A `Likeness` relates worlds in which all of that is the same, and
lasts through changes of the model and through lookups.  `Mirrors` relates an action to one on
worlds that are alike: in such worlds both come to the same, or both have no outcome, and the worlds
are alike afterwards.  Every operation that runs no bodies mirrors itself.

The statements about operations follow their definitions step by step.

## Design

Types are told apart by their epoch, because remembered lookups are.  So a change of the model keeps
a likeness if it leaves the types alone or begins a new epoch.

`Likeness.along` relates a world to one with less state.  Along it, mirroring is an equation between
outcomes (`Mirrors.outcome`).
-/

namespace ProductModel

open ProductModel.Action

variable {β τ σ α γ : Type}

/-- **How two worlds are alike.** -/
structure Likeness (β τ σ : Type) where
  Rel : World β τ → World β σ → Prop
  model : ∀ {w v}, Rel w v → v.model = w.model
  validates : ∀ {w v}, Rel w v → v.config.validateProperties = w.config.validateProperties
  edited : ∀ {w v} (m : Model β), Rel w v →
    m.types = w.model.types ∨ w.model.types.epoch < m.types.epoch →
    Rel { w with model := m } { v with model := m }
  finds : ∀ {w v} type name, Rel w v → v.finds type name = w.finds type name
  lookingUp : ∀ {w v} type name, Rel w v → Rel (w.lookingUp type name) (v.lookingUp type name)

/-- **Outcomes in worlds that are alike**, with results that compare as told. -/
inductive Matched (ℓ : Likeness β τ σ) (same : Except ModelError α → Except ModelError α → Prop) :
    Option (Except ModelError α × World β τ) → Option (Except ModelError α × World β σ) → Prop
  | none : Matched ℓ same none none
  | some {r r' : Except ModelError α} {w : World β τ} {v : World β σ} :
      same r r' → ℓ.Rel w v → Matched ℓ same (some (r, w)) (some (r', v))

theorem Matched.mono {ℓ : Likeness β τ σ}
    {same same' : Except ModelError α → Except ModelError α → Prop}
    {out : Option (Except ModelError α × World β τ)}
    {out' : Option (Except ModelError α × World β σ)}
    (h : Matched ℓ same out out') (hsame : ∀ r r', same r r' → same' r r') :
    Matched ℓ same' out out' := by
  cases h with
  | none => exact .none
  | some hr hwv => exact .some (hsame _ _ hr) hwv

/-- Matched outcomes stay so when the same is made of both. -/
theorem Matched.map {τ' σ' : Type} {ℓ : Likeness β τ σ} {ℓ' : Likeness β τ' σ'}
    {out : Option (Except ModelError α × World β τ)}
    {out' : Option (Except ModelError α × World β σ)}
    {f : Except ModelError α × World β τ → Except ModelError γ × World β τ'}
    {g : Except ModelError α × World β σ → Except ModelError γ × World β σ'}
    (h : Matched ℓ Eq out out') (hfg : ∀ {r w v}, ℓ.Rel w v →
      (f (r, w)).1 = (g (r, v)).1 ∧ ℓ'.Rel (f (r, w)).2 (g (r, v)).2) :
    Matched ℓ' Eq (out.map f) (out'.map g) := by
  cases h with
  | none => exact .none
  | some hr hwv =>
    subst hr
    exact .some (hfg hwv).1 (hfg hwv).2

/-- **An action with the same outcomes** on worlds that are alike. -/
structure Mirrors (ℓ : Likeness β τ σ) (x : Action β τ α) (y : Action β σ α) : Prop where
  matched : ∀ {w v}, ℓ.Rel w v → Matched ℓ Eq (x.outcome w) (y.outcome v)

/-! ## Worlds with less state -/

/-- **A world with less state**: everything else is the same. -/
def World.project (f : τ → σ) (w : World β τ) : World β σ := ⟨w.model, w.config, w.cache, f w.host⟩

theorem World.lookingUp_project (f : τ → σ) (w : World β τ) (type : TypeId) (name : Symbol) :
    (w.project f).lookingUp type name = (w.lookingUp type name).project f := by
  show (if w.config.dispatchCache then _ else _) = (if w.config.dispatchCache then _ else _ :
    World β τ).project f
  split <;> rfl

/-- Worlds are alike if one is the other with less state. -/
def Likeness.along (f : τ → σ) : Likeness β τ σ where
  Rel w v := v = w.project f
  model h := by rw [h]; rfl
  validates h := by rw [h]; rfl
  edited m h _ := by rw [h]; rfl
  finds _ _ h := by rw [h]; rfl
  lookingUp type name h := by rw [h]; exact World.lookingUp_project f _ type name

theorem Mirrors.outcome {f : τ → σ} {x : Action β τ α} {y : Action β σ α}
    (h : Mirrors (.along f) x y) (w : World β τ) :
    y.outcome (w.project f) = (x.outcome w).map fun r => (r.1, r.2.project f) := by
  have hmatched := h.matched (w := w) rfl
  revert hmatched
  generalize x.outcome w = out, y.outcome (w.project f) = out'
  rintro (_ | ⟨rfl, rfl⟩)
  · rfl
  · rfl

theorem Mirrors.of_outcome {f : τ → σ} {x : Action β τ α} {y : Action β σ α}
    (h : ∀ w, y.outcome (w.project f) = (x.outcome w).map fun r => (r.1, r.2.project f)) :
    Mirrors (.along f) x y := by
  constructor
  rintro w v rfl
  rw [h]
  cases x.outcome w with
  | none => exact .none
  | some r => exact .some rfl rfl

variable {ℓ : Likeness β τ σ}

namespace Mirrors

/-! ## Steps -/

theorem pure (a : α) : Mirrors ℓ (Pure.pure a : Action β τ α) (Pure.pure a) :=
  ⟨fun h => .some rfl h⟩

theorem throw (err : ModelError) :
    Mirrors ℓ (MonadExcept.throw err : Action β τ α) (MonadExcept.throw err) :=
  ⟨fun h => .some rfl h⟩

theorem exhausted : Mirrors ℓ (Action.exhausted : Action β τ α) Action.exhausted := ⟨fun _ => .none⟩

/-- **A step and what follows it.** -/
theorem bind {x : Action β τ γ} {y : Action β σ γ} {k : γ → Action β τ α} {l : γ → Action β σ α}
    (hx : Mirrors ℓ x y) (hk : ∀ a, Mirrors ℓ (k a) (l a)) : Mirrors ℓ (x >>= k) (y >>= l) := by
  constructor
  intro w v h
  rw [outcome_bind, outcome_bind]
  have hmatched := hx.matched h
  revert hmatched
  generalize x.outcome w = out, y.outcome v = out'
  rintro (_ | ⟨rfl, h'⟩)
  · exact .none
  · rename_i r _ _
    cases r with
    | ok a => exact (hk a).matched h'
    | error err => exact .some rfl h'

theorem attempt {x : Action β τ α} {y : Action β σ α} (h : Mirrors ℓ x y) :
    Mirrors ℓ (Action.attempt x) (Action.attempt y) := by
  constructor
  intro w v hwv
  rw [outcome_attempt, outcome_attempt]
  exact (h.matched hwv).map fun h' => ⟨rfl, h'⟩

theorem ofExcept (r : Except ModelError α) :
    Mirrors ℓ (Action.ofExcept r : Action β τ α) (Action.ofExcept r) := by
  cases r with
  | ok a => exact .pure a
  | error err => exact .throw err

/-- A change of the world that keeps it alike. -/
theorem modify {g : World β τ → World β τ} {g' : World β σ → World β σ}
    (h : ∀ {w v}, ℓ.Rel w v → ℓ.Rel (g w) (g' v)) :
    Mirrors ℓ (modify g : Action β τ PUnit) (modify g') := ⟨fun hwv => .some rfl (h hwv)⟩

/-! ## The parts of a world -/

theorem model : Mirrors ℓ (Action.model : Action β τ (Model β)) Action.model :=
  ⟨fun h => .some (congrArg Except.ok (ℓ.model h).symm) h⟩

/-- What follows a look at the model knows which one it was. -/
theorem model_bind {k : Model β → Action β τ α} {l : Model β → Action β σ α}
    (h : ∀ {w v}, ℓ.Rel w v → Matched ℓ Eq ((k w.model).outcome w) ((l w.model).outcome v)) :
    Mirrors ℓ (Action.model >>= k) (Action.model >>= l) := by
  constructor
  intro w v hwv
  have hmatched := h hwv
  show Matched ℓ Eq ((k w.model).outcome w) ((l v.model).outcome v)
  rw [ℓ.model hwv]
  exact hmatched

/-- What is done if values are validated, and what is done otherwise. -/
theorem ifValidating {x x' : Action β τ α} {y y' : Action β σ α} (hx : Mirrors ℓ x y)
    (hx' : Mirrors ℓ x' y') :
    Mirrors ℓ (Action.config >>= fun c => if c.validateProperties then x else x')
      (Action.config >>= fun c => if c.validateProperties then y else y') := by
  constructor
  intro w v h
  show Matched ℓ Eq ((if w.config.validateProperties then x else x').outcome w)
    ((if v.config.validateProperties then y else y').outcome v)
  rw [ℓ.validates h]
  split
  · exact hx.matched h
  · exact hx'.matched h

/-- A change of the model that leaves the types alone. -/
theorem modifyModel {g : Model β → Model β} (hg : ∀ m, (g m).types = m.types) :
    Mirrors ℓ (Action.modifyModel g : Action β τ Unit) (Action.modifyModel g) := by
  refine .modify fun {w v} h => ?_
  rw [ℓ.model h]
  exact ℓ.edited _ h (Or.inl (hg _))

theorem ask (g : Model β → Except ModelError α) :
    Mirrors ℓ (Action.ask g : Action β τ α) (Action.ask g) := by
  unfold Action.ask
  exact model.bind fun _ => .ofExcept _

theorem find (id : InstanceId) :
    Mirrors ℓ (Action.find id : Action β τ (Instance β)) (Action.find id) := .ask _

theorem update (id : InstanceId) (g : Instance β → Instance β) :
    Mirrors ℓ (Action.update id g : Action β τ Unit) (Action.update id g) := by
  unfold Action.update
  exact (find id).bind fun _ => .modifyModel fun _ => rfl

theorem updateIfThere (id : InstanceId) (g : Instance β → Instance β) :
    Mirrors ℓ (Action.updateIfThere id g : Action β τ Unit) (Action.updateIfThere id g) :=
  .modifyModel fun _ => rfl

theorem typeOf (id : InstanceId) :
    Mirrors ℓ (Action.typeOf id : Action β τ TypeId) (Action.typeOf id) := by
  unfold Action.typeOf
  exact (find id).bind fun _ => .pure _

theorem absoluteName (id : InstanceId) :
    Mirrors ℓ (Action.absoluteName id : Action β τ String) (Action.absoluteName id) := by
  unfold Action.absoluteName
  exact (ask _).bind fun _ => (modifyModel (by intro; rfl)).bind fun _ => .pure _

theorem describe (id : InstanceId) :
    Mirrors ℓ (Action.describe id : Action β τ String) (Action.describe id) := by
  unfold Action.describe
  exact model.bind fun _ => (modifyModel (by intro; rfl)).bind fun _ => .pure _

theorem findMethod (id : TypeId) (name : Symbol) :
    Mirrors ℓ (Action.findMethod id name : Action β τ (FoundMethod β))
      (Action.findMethod id name) := by
  constructor
  intro w v h
  rw [outcome_findMethod, outcome_findMethod, ℓ.finds id name h]
  exact .some rfl (ℓ.lookingUp id name h)

/-- An error whose message names an instance. -/
theorem describe_throw (id : InstanceId) (err : String → ModelError) :
    Mirrors ℓ (Action.describe id >>= fun name => MonadExcept.throw (err name) : Action β τ α)
      (Action.describe id >>= fun name => MonadExcept.throw (err name)) :=
  (describe id).bind fun _ => .throw _

theorem throw_bind (err : ModelError) (k : γ → Action β τ α) (l : γ → Action β σ α) :
    Mirrors ℓ ((MonadExcept.throw err : Action β τ γ) >>= k) (MonadExcept.throw err >>= l) :=
  ⟨fun h => .some rfl h⟩

theorem describe_throw_bind (id : InstanceId) (err : String → ModelError) (k : γ → Action β τ α)
    (l : γ → Action β σ α) :
    Mirrors ℓ (Action.describe id >>= fun name =>
        (MonadExcept.throw (err name) : Action β τ γ) >>= k)
      (Action.describe id >>= fun name => MonadExcept.throw (err name) >>= l) :=
  (describe id).bind fun _ => .throw_bind _ _ _

theorem ensureNotBusy (id : InstanceId) (operation : String) :
    Mirrors ℓ (Action.ensureNotBusy id operation : Action β τ Unit)
      (Action.ensureNotBusy id operation) := by
  unfold Action.ensureNotBusy
  refine (find id).bind fun i => ?_
  split
  · exact .describe_throw _ _
  · exact .pure _

/-! ## Operations that run no bodies -/

theorem resolve (id : InstanceId) (name : Symbol) :
    Mirrors ℓ (Action.resolve id name : Action β τ (Attribute β)) (Action.resolve id name) := by
  unfold Action.resolve
  refine (find id).bind fun i => model.bind fun m => ?_
  split
  · exact .pure _
  · split
    · exact .pure _
    · split
      · exact .pure _
      · refine (findMethod i.type name).bind fun found => ?_
        split
        · exact .pure _
        · exact .describe_throw _ _

theorem getAttr (id : InstanceId) (name : Symbol) :
    Mirrors ℓ (Action.getAttr id name : Action β τ Value) (Action.getAttr id name) := by
  unfold Action.getAttr
  refine (resolve id name).bind fun a => ?_
  split
  · exact .pure _
  · exact .throw _

theorem checkCall (m : Method β) (receiver : Option InstanceId) (args : List Value) :
    Mirrors ℓ (Action.checkCall m receiver args : Action β τ Unit)
      (Action.checkCall m receiver args) := by
  unfold Action.checkCall
  dsimp only
  split
  · split
    · exact .throw_bind _ _ _
    · split
      · exact .throw _
      · exact .pure _
  · split
    · exact .throw _
    · exact .pure _

theorem notAMethod (id : InstanceId) (name : Symbol) :
    Mirrors ℓ (Action.notAMethod id name : Action β τ α) (Action.notAMethod id name) := by
  unfold Action.notAMethod
  exact (resolve id name).bind fun _ => .throw _

theorem instantiableType (typeName : String) :
    Mirrors ℓ (Action.instantiableType typeName : Action β τ TypeId)
      (Action.instantiableType typeName) := by
  unfold Action.instantiableType
  refine (ask _).bind fun id => model.bind fun m => ?_
  dsimp only
  split
  · exact .throw_bind _ _ _
  · exact .pure _

theorem ensureAcceptsChildren (father : InstanceId) (operation : String) :
    Mirrors ℓ (Action.ensureAcceptsChildren father operation : Action β τ Unit)
      (Action.ensureAcceptsChildren father operation) := by
  unfold Action.ensureAcceptsChildren
  refine (find father).bind fun i => ?_
  dsimp only
  split
  · exact .describe_throw_bind _ _ _ _
  · exact .ensureNotBusy _ _

theorem ensureNameFree (father : Option InstanceId) (name : String) :
    Mirrors ℓ (Action.ensureNameFree father name : Action β τ Unit)
      (Action.ensureNameFree father name) := by
  unfold Action.ensureNameFree
  refine model.bind fun m => ?_
  dsimp only
  split
  · split
    · exact .describe_throw _ _
    · exact .pure _
  · split
    · exact .throw _
    · exact .pure _

theorem insertNew (type : TypeId) (father : Option InstanceId) (name : String) (element : Bool) :
    Mirrors ℓ (Action.insertNew type father name element : Action β τ InstanceId)
      (Action.insertNew type father name element) := by
  unfold Action.insertNew
  exact model.bind fun m => (modifyModel (by intro; rfl)).bind fun _ => (ofExcept _).bind fun _ =>
    (modifyModel (by intro; rfl)).bind fun _ => .pure _

theorem place (type : TypeId) (father : Option InstanceId) (name : String) (element : Bool) :
    Mirrors ℓ (Action.place type father name element : Action β τ InstanceId)
      (Action.place type father name element) := by
  unfold Action.place
  exact (insertNew type father name element).bind fun id => (update id _).bind fun _ => .pure _

theorem ensureNoneBusy (operation : String) (ids : List InstanceId) :
    Mirrors ℓ (Action.ensureNoneBusy operation ids : Action β τ Unit)
      (Action.ensureNoneBusy operation ids) := by
  induction ids with
  | nil => exact .pure _
  | cons id ids ih =>
    unfold Action.ensureNoneBusy
    exact (ensureNotBusy id operation).bind fun _ => ih

theorem rename (id : InstanceId) (name : String) :
    Mirrors ℓ (Action.rename id name : Action β τ Unit) (Action.rename id name) := by
  unfold Action.rename
  refine (ofExcept _).bind fun _ => (ensureNotBusy id _).bind fun _ => (find id).bind fun i => ?_
  dsimp only
  split
  · exact .pure _
  · split
    · exact (ensureNotBusy _ _).bind fun _ => (ensureNameFree _ _).bind fun _ =>
        .modifyModel fun _ => rfl
    · exact (ensureNameFree _ _).bind fun _ =>
        .modifyModel fun _ => rfl

theorem beElement (id : InstanceId) :
    Mirrors ℓ (Action.beElement id : Action β τ Unit) (Action.beElement id) := by
  unfold Action.beElement
  refine (find id).bind fun i => ?_
  dsimp only
  split
  · exact .describe_throw_bind _ _ _ _
  · exact (ensureNotBusy id _).bind fun _ => .update _ _

theorem unBeElement (id : InstanceId) :
    Mirrors ℓ (Action.unBeElement id : Action β τ Unit) (Action.unBeElement id) := by
  unfold Action.unBeElement
  refine (find id).bind fun i => ?_
  dsimp only
  split
  · exact .describe_throw_bind _ _ _ _
  · exact (ensureNotBusy id _).bind fun _ => .update _ _

theorem setProductData (id : InstanceId) (data : ProductData β) :
    Mirrors ℓ (Action.setProductData id data : Action β τ Unit)
      (Action.setProductData id data) := by
  unfold Action.setProductData
  exact (find id).bind fun _ => .modifyModel fun _ => rfl

theorem setProgram (id program : InstanceId) :
    Mirrors ℓ (Action.setProgram id program : Action β τ Unit) (Action.setProgram id program) := by
  unfold Action.setProgram
  exact (find program).bind fun _ => .update _ _

theorem setupProperty (id : InstanceId) (d : PropertyDef) :
    Mirrors ℓ (Action.setupProperty id d : Action β τ Bool) (Action.setupProperty id d) := by
  unfold Action.setupProperty
  exact (ensureNotBusy id _).bind fun _ => (find id).bind fun i => (update id _).bind fun _ =>
    .pure _

theorem removeProperty (id : InstanceId) (key : Symbol) :
    Mirrors ℓ (Action.removeProperty id key : Action β τ Bool) (Action.removeProperty id key) := by
  unfold Action.removeProperty
  refine (ensureNotBusy id _).bind fun _ => (find id).bind fun i => ?_
  dsimp only
  split
  · exact (update id _).bind fun _ => .pure _
  · exact .pure _

theorem declaredProperty (id : InstanceId) (key : Symbol) :
    Mirrors ℓ (Action.declaredProperty id key : Action β τ PropertyDef)
      (Action.declaredProperty id key) := by
  unfold Action.declaredProperty
  refine (find id).bind fun i => ?_
  split
  · exact .pure _
  · exact .describe_throw _ _

theorem setPropertyState (id : InstanceId) (key : Symbol) (state : PropertyState) :
    Mirrors ℓ (Action.setPropertyState id key state : Action β τ Unit)
      (Action.setPropertyState id key state) := by
  unfold Action.setPropertyState
  refine (describe id).bind fun name => (find id).bind fun i => ?_
  dsimp only
  split
  · exact .throw_bind _ _ _
  · exact .update _ _

theorem propertyState (id : InstanceId) (key : Symbol) :
    Mirrors ℓ (Action.propertyState id key : Action β τ PropertyState)
      (Action.propertyState id key) := by
  unfold Action.propertyState
  exact (declaredProperty id key).bind fun _ => .pure _

theorem modifyChanges (g : ChangeHistory → ChangeHistory) :
    Mirrors ℓ (Action.modifyChanges g : Action β τ Unit) (Action.modifyChanges g) :=
  .modifyModel fun _ => rfl

theorem currentKeys :
    Mirrors ℓ (Action.currentKeys : Action β τ (List Symbol)) Action.currentKeys := by
  unfold Action.currentKeys
  exact model.bind fun _ => .pure _

theorem markStorable (storable : Bool) (ids : List InstanceId) :
    Mirrors ℓ (Engine.markStorable storable ids : Action β τ Unit)
      (Engine.markStorable storable ids) := by
  induction ids with
  | nil => exact .pure _
  | cons id ids ih =>
    unfold Engine.markStorable
    exact (update id _).bind fun _ => ih

/-- **A change of the types** that is accepted begins a new epoch. -/
theorem changeTypes {change : Registry β → Except TypeError (TypeId × Registry β)}
    (hchange : ∀ {r id r'}, change r = .ok (id, r') → r.epoch < r'.epoch) :
    Mirrors ℓ (Engine.changeTypes change : Action β τ TypeId) (Engine.changeTypes change) := by
  unfold Engine.changeTypes
  refine model_bind fun {w v} h => ?_
  cases hr : change w.model.types with
  | error err => exact .some rfl h
  | ok r =>
    obtain ⟨id, types⟩ := r
    refine .some rfl ?_
    show ℓ.Rel { w with model := { w.model with types } } { v with model := { v.model with types } }
    rw [ℓ.model h]
    exact ℓ.edited _ h (Or.inr (hchange hr))

end Mirrors

/-! ## Checks -/

/-- **Alike beside a log** that is the same. -/
def Likeness.besideLog (ℓ : Likeness β τ σ) : Likeness β (τ × ProblemLog) (σ × ProblemLog) where
  Rel w v := ℓ.Rel (w.project Prod.fst) (v.project Prod.fst) ∧ w.host.2 = v.host.2
  model h := ℓ.model h.1
  validates h := ℓ.validates h.1
  edited m h hm := ⟨ℓ.edited m h.1 hm, h.2⟩
  finds type name h := ℓ.finds type name h.1
  lookingUp type name h := by
    rw [World.host_lookingUp, World.host_lookingUp, ← World.lookingUp_project,
      ← World.lookingUp_project]
    exact ⟨ℓ.lookingUp type name h.1, h.2⟩

namespace Mirrors

theorem withLog {x : Action β τ α} {y : Action β σ α} (h : Mirrors ℓ x y) :
    Mirrors ℓ.besideLog (Action.withLog x) (Action.withLog y) := by
  constructor
  rintro w v ⟨hwv, hlog⟩
  rw [outcome_withLog, outcome_withLog]
  exact (h.matched hwv).map fun h' => ⟨rfl, h', hlog⟩

theorem collecting {x : Logged β τ α} {y : Logged β σ α} (h : Mirrors ℓ.besideLog x y)
    (log : ProblemLog) : Mirrors ℓ (Action.collecting log x) (Action.collecting log y) := by
  constructor
  intro w v hwv
  rw [outcome_collecting, outcome_collecting]
  have hmatched := h.matched (w := { w with host := (w.host, log) })
    (v := { v with host := (v.host, log) }) ⟨hwv, rfl⟩
  exact hmatched.map fun ⟨h', hlog⟩ => ⟨by rw [hlog], h'⟩

theorem inspectHandler (op : InspectOp) :
    Mirrors ℓ.besideLog (Inspection.handler op : Logged β τ op.Answer)
      (Inspection.handler op) := by
  cases op with
  | getAttr id name => exact .getAttr id name
  | absoluteName id => exact .absoluteName id
  | report id property message =>
    unfold Inspection.handler Action.report
    refine model.bind fun _ => (describe id).bind fun _ => .modify ?_
    rintro w v ⟨hwv, hlog⟩
    refine ⟨hwv, ?_⟩
    show w.host.2.push _ _ = v.host.2.push _ _
    rw [hlog]

end Mirrors

end ProductModel
