import ProductModel.Proofs.DispatchCache
import ProductModel.Proofs.Run.Creation
import ProductModel.Proofs.StoredValues

/-!
# Outcomes of programs and operations

What a program comes to follows from what its operations come to, in the order in which it performs
them.  The statements below are equations between outcomes, so they say both that there is an
outcome and which one it is.  They serve to follow a given program through a given world.

* `Program.outcome_run_bind`, `_call`, `_ask` and `_view` follow a program.
* `Engine.outcome_callRules` runs a chain whose rules only look: nothing is left of it.
* `Action.outcome_place` and `Engine.outcome_create` make an instance.
-/

namespace ProductModel

open ProductModel.Action

variable {β σ α γ : Type} {w w' : World β σ} {id : InstanceId} {i : Instance β}

/-! ## Programs -/

namespace Program

variable {ω : Type} {ans : ω → Type} {handler : (op : ω) → Action β σ (ans op)}

instance {ν ε : Type} : LawfulMonad (Program ω ans ν σ ε) :=
  LawfulMonad.mk' (Program ω ans ν σ ε) bind_pure (fun _ _ => rfl) bind_assoc

/-- **A program and what follows it** are run one after the other. -/
theorem outcome_run_bind (p : Program ω ans (Model β) σ ModelError γ)
    (f : γ → Program ω ans (Model β) σ ModelError α) (w : World β σ) :
    ((p >>= f).run handler).outcome w =
      (p.run handler >>= fun a => (f a).run handler).outcome w := by
  induction p generalizing w with
  | pure a => rfl
  | fail e => rfl
  | perform op next ih =>
    show (attempt (handler op) >>= fun r => ((next r) >>= f).run handler).outcome w =
      ((attempt (handler op) >>= fun r => (next r).run handler) >>= _).outcome w
    rw [outcome_bind, outcome_bind, outcome_bind, outcome_attempt]
    cases (handler op).outcome w with
    | none => rfl
    | some out => exact (ih out.1 out.2).trans (outcome_bind _ _ _)
  | look next ih => exact ih w.model w.host w
  | put s next ih => exact ih { w with host := s }

/-- What follows a program with a result. -/
theorem outcome_run_bind_ok {p : Program ω ans (Model β) σ ModelError γ}
    {f : γ → Program ω ans (Model β) σ ModelError α} {a : γ}
    (h : (p.run handler).outcome w = some (.ok a, w')) :
    ((p >>= f).run handler).outcome w = ((f a).run handler).outcome w' := by
  rw [outcome_run_bind, outcome_bind_ok h]

/-- A program that fails ends there. -/
theorem outcome_run_bind_error {p : Program ω ans (Model β) σ ModelError γ}
    {f : γ → Program ω ans (Model β) σ ModelError α} {err : ModelError}
    (h : (p.run handler).outcome w = some (.error err, w')) :
    ((p >>= f).run handler).outcome w = some (.error err, w') := by
  rw [outcome_run_bind, outcome_bind_error h]

/-- One operation. -/
theorem outcome_run_call (op : ω) (w : World β σ) :
    ((call op : Program ω ans (Model β) σ ModelError _).run handler).outcome w =
      (handler op).outcome w := by
  show (attempt (handler op) >>= fun r => Program.run handler (ofExcept r)).outcome w = _
  rw [outcome_bind, outcome_attempt]
  cases (handler op).outcome w with
  | none => rfl
  | some out =>
    obtain ⟨r, w'⟩ := out
    cases r <;> rfl

/-- What follows an operation with a result. -/
theorem outcome_run_call_bind_ok {op : ω}
    {f : ans op → Program ω ans (Model β) σ ModelError α} {a : ans op}
    (h : (handler op).outcome w = some (.ok a, w')) :
    ((call op >>= f).run handler).outcome w = ((f a).run handler).outcome w' :=
  outcome_run_bind_ok ((outcome_run_call op w).trans h)

/-- An operation that fails ends the program. -/
theorem outcome_run_call_bind_error {op : ω}
    {f : ans op → Program ω ans (Model β) σ ModelError α} {err : ModelError}
    (h : (handler op).outcome w = some (.error err, w')) :
    ((call op >>= f).run handler).outcome w = some (.error err, w') :=
  outcome_run_bind_error ((outcome_run_call op w).trans h)

/-- What follows a question about the model that is answered. -/
theorem outcome_run_ask_bind_ok {g : Model β → Except ModelError γ}
    {f : γ → Program ω ans (Model β) σ ModelError α} {a : γ} (h : g w.model = .ok a) :
    ((ask g >>= f).run handler).outcome w = ((f a).run handler).outcome w := by
  refine outcome_run_bind_ok ?_
  show (Program.run handler (ofExcept (g w.model))).outcome w = _
  rw [h]
  rfl

/-- What follows a look at the model. -/
theorem outcome_run_view_bind {f : Model β → Program ω ans (Model β) σ ModelError α} :
    ((view >>= f).run handler).outcome w = ((f w.model).run handler).outcome w := rfl

end Program

/-! ## Changes of one instance -/

/-- **Nothing but one instance, the record of changes and remembered lookups differs**, and the
instance is as given. -/
structure World.Turns (w : World β σ) (id : InstanceId) (i : Instance β) (w' : World β σ) :
    Prop where
  apart : w.Apart id w'
  there : w'.model.arena.get? id = some i
  keeps : w.Keeps w'

namespace World.Turns

variable {w'' : World β σ} {j : Instance β}

theorem refl (hi : w.model.arena.get? id = some i) : w.Turns id i w :=
  ⟨.refl id w, hi, .refl w⟩

theorem trans (h : w.Turns id i w') (h' : w'.Turns id j w'') : w.Turns id j w'' :=
  ⟨h.apart.trans h'.apart, h'.there, h.keeps.trans h'.keeps⟩

theorem agrees (h : w.Turns id i w') (h' : w'.Agrees w'') : w.Turns id i w'' :=
  h.trans ⟨h'.apart, by rw [h'.model, h.there], h'.keeps⟩

theorem modify (hi : w.model.arena.get? id = some i) (f : Instance β → Instance β) :
    w.Turns id (f i) { w with model := w.model.modify id f } := by
  refine ⟨.modify id w f, ?_, .modify id w f⟩
  show (w.model.arena.modify id f).get? id = _
  rw [Arena.get?_modify_self, hi]
  rfl

theorem truthful (h : w.Turns id i w') (hw : w.Truthful) : w'.Truthful := h.keeps.sound hw

end World.Turns

/-! ## Checks -/

theorem outcome_typeOf (hi : w.model.arena.get? id = some i) :
    (typeOf id : Action β σ TypeId).outcome w = some (.ok i.type, w) := by
  rw [typeOf, outcome_bind_ok (outcome_find hi)]
  rfl

/-- An instance on which no chain runs is not busy. -/
theorem outcome_ensureNotBusy (hi : w.model.arena.get? id = some i) (hidle : i.busy = 0)
    (operation : String) :
    (ensureNotBusy id operation : Action β σ Unit).outcome w = some (.ok (), w) := by
  unfold ensureNotBusy
  rw [outcome_bind_ok (outcome_find hi), Instance.isBusy, hidle]
  rfl

theorem outcome_ensureAcceptsChildren (hi : w.model.arena.get? id = some i)
    (hlive : i.state = .live) (hidle : i.busy = 0) (operation : String) :
    (ensureAcceptsChildren id operation : Action β σ Unit).outcome w = some (.ok (), w) := by
  unfold ensureAcceptsChildren
  rw [outcome_bind_ok (outcome_find hi), if_neg (by simp [hlive])]
  exact outcome_ensureNotBusy hi hidle operation

theorem outcome_lookupType (w : World β σ) (typeName : String) :
    (lookupType typeName : Action β σ TypeId).outcome w =
      some ((w.model.types.lookup typeName).elim (.error (.creation (.unknownType typeName))) .ok,
        w) := by
  show (Action.ofExcept (w.model.lookupType typeName) : Action β σ TypeId).outcome w = _
  rw [Model.lookupType]
  cases w.model.types.lookup typeName <;> rfl

/-- The type of a name is found and can have instances, or there is an error. -/
theorem outcome_instantiableType (w : World β σ) (typeName : String) :
    (∃ err, (instantiableType typeName : Action β σ TypeId).outcome w = some (.error err, w)) ∨
      ∃ type, w.model.types.lookup typeName = some type ∧
        (instantiableType typeName : Action β σ TypeId).outcome w = some (.ok type, w) := by
  have hmodel : (Action.model : Action β σ (Model β)).outcome w = some (.ok w.model, w) := rfl
  have hask := outcome_lookupType w typeName
  unfold instantiableType
  cases htype : w.model.types.lookup typeName with
  | none =>
    rw [htype] at hask
    exact Or.inl ⟨_, outcome_bind_error hask⟩
  | some type =>
    rw [htype] at hask
    rw [show (ask (·.lookupType typeName) : Action β σ TypeId) = lookupType typeName from rfl,
      outcome_bind_ok hask, outcome_bind_ok hmodel]
    dsimp only
    by_cases habstract : (w.model.types.definition? type).any (·.isAbstract) = true
    · rw [if_pos habstract]
      exact Or.inl ⟨_, rfl⟩
    · rw [if_neg habstract]
      exact Or.inr ⟨type, rfl, rfl⟩

/-- A method that takes any arguments is called with a receiver. -/
theorem outcome_checkCall {m : Method β} (harity : m.arity = none) (args : List Value) :
    (checkCall m (some id) args : Action β σ Unit).outcome w = some (.ok (), w) := by
  unfold checkCall
  rw [harity]
  simp only [Option.isNone_some, Bool.and_false, Bool.false_eq_true, if_false]
  rfl

/-- A method that takes any arguments is its body. -/
theorem Engine.outcome_invoke {e : Engine β σ} {m : Method β} (harity : m.arity = none)
    (args : List Value) :
    (e.invoke m (some id) args).outcome w =
      (e.run (e.language.method m.body ⟨some id, args⟩)).outcome w := by
  unfold invoke
  rw [outcome_bind_ok (outcome_checkCall harity args)]

/-! ## Properties and attributes -/

/-- The instance on which a property is declared. -/
def Instance.declaring (i : Instance β) (d : PropertyDef) : Instance β :=
  { i with properties := (i.properties.setup d).2 }

/-- The instance for which a value is stored. -/
def Instance.storing (i : Instance β) (key : Symbol) (v : Value) : Instance β :=
  { i with dynamic := i.dynamic.insert key v }

@[simp] theorem Instance.stored_storing (i : Instance β) (key : Symbol) (v : Value) :
    (i.storing key v).stored key = v := by
  simp [stored, storing]

theorem Instance.stored_storing_of_ne (i : Instance β) {key key' : Symbol} (h : key' ≠ key)
    (v : Value) : (i.storing key v).stored key' = i.stored key' := by
  simp [stored, storing, Association.get?_insert_of_ne _ h]

/-- **A property is declared**, or declared anew. -/
theorem exists_setupProperty (hi : w.model.arena.get? id = some i) (hidle : i.busy = 0)
    (d : PropertyDef) :
    ∃ changed w', (setupProperty id d : Action β σ Bool).outcome w = some (.ok changed, w') ∧
      w.Turns id (i.declaring d) w' := by
  refine ⟨(i.properties.setup d).1, _, ?_, .modify hi fun j =>
    { j with properties := (i.properties.setup d).2 }⟩
  unfold setupProperty
  rw [outcome_bind_ok (outcome_ensureNotBusy hi hidle _), outcome_bind_ok (outcome_find hi)]
  dsimp only
  rw [outcome_bind_ok (outcome_update hi _)]
  rfl

/-- **A property without an accessor is written.** -/
theorem Engine.exists_writeProperty {key : Symbol} (e : Engine β σ) (v : Value)
    (hi : w.model.arena.get? id = some i) (hset : w.finds i.type (Accessor.setter key) = none) :
    ∃ w', (e.writeProperty id key v).outcome w = some (.ok (), w') ∧
      w.Turns id (i.storing key v) w' := by
  obtain ⟨w', hwrite, hapart, hthere, hkeeps⟩ := bodiless_writeProperty v hi hset
  exact ⟨w', hwrite e, hapart, hthere, hkeeps⟩

/-! ## Rule chains -/

/-- What was marked as busy and is marked as idle again is as it was. -/
theorem World.leaving_entering (hi : w.model.arena.get? id = some i) :
    (w.entering id).leaving id = w := by
  have hslot := Arena.get?_eq_some_iff.mp hi
  have hentered : (w.model.arena.modify id fun i => { i with busy := i.busy + 1 }).get? id =
      some { i with busy := i.busy + 1 } := by
    rw [Arena.get?_modify_self, hi]
    rfl
  have harena : (w.model.arena.modify id fun i => { i with busy := i.busy + 1 }).modify id
      (fun i => { i with busy := i.busy - 1 }) = w.model.arena := by
    rw [Arena.modify_of_get?_eq_some hentered, Arena.modify_of_get?_eq_some hi]
    simp only [Nat.add_sub_cancel, List.set_set]
    congr 1
    obtain ⟨hlt, hat⟩ := List.getElem?_eq_some_iff.mp hslot
    rw [← hat]
    exact List.set_getElem_self hlt
  show { w with model := { w.model with arena := _ } } = w
  rw [show ((w.entering id).model.arena.modify id fun i => { i with busy := i.busy - 1 }) =
    w.model.arena from harena]

namespace Engine

variable {e : Engine β σ}

/-- **A chain is run while its instance is busy.** -/
theorem outcome_callRules_eq (hi : w.model.arena.get? id = some i) (reason : Symbol)
    (phase : Option RuleKind) (arg : Value) :
    (e.callRules id reason phase arg).outcome w =
      ((e.runLinks id reason arg 0 (w.model.types.ruleChain i.type reason phase)).outcome
        (w.entering id)).map fun out => (out.1, out.2.leaving id) := by
  have hmodel : (Action.model : Action β σ (Model β)).outcome w = some (.ok w.model, w) := rfl
  unfold callRules
  rw [outcome_bind_ok (outcome_typeOf hi), outcome_bind_ok hmodel]
  generalize w.model.types.ruleChain i.type reason phase = chain
  cases chain with
  | nil =>
    -- A chain without rules does not even mark its instance.
    have hrun : (e.runLinks id reason arg 0 []).outcome (w.entering id) =
        some (.ok (.passed 0), w.entering id) := rfl
    rw [hrun, Option.map_some, World.leaving_entering hi]
    rfl
  | cons link links =>
    have henter : (updateIfThere id fun i => { i with busy := i.busy + 1 } :
        Action β σ Unit).outcome w = some (.ok (), w.entering id) := rfl
    dsimp only
    rw [outcome_bind_ok henter, outcome_bind, outcome_attempt]
    cases (e.runLinks id reason arg 0 (link :: links)).outcome (w.entering id) with
    | none => rfl
    | some out =>
      obtain ⟨r, last⟩ := out
      have hleave : (updateIfThere id fun i => { i with busy := i.busy - 1 } :
          Action β σ Unit).outcome last = some (.ok (), last.leaving id) := rfl
      show (updateIfThere id _ >>= fun _ => Action.ofExcept r).outcome last = _
      rw [outcome_bind_ok hleave]
      cases r <;> rfl

/-- **A chain whose rules only look** leaves nothing behind. -/
theorem outcome_callRules (hi : w.model.arena.get? id = some i) {reason : Symbol}
    {phase : Option RuleKind} {arg : Value} {r : Except ModelError ChainOutcome}
    (hlinks : (e.runLinks id reason arg 0 (w.model.types.ruleChain i.type reason phase)).outcome
      (w.entering id) = some (r, w.entering id)) :
    (e.callRules id reason phase arg).outcome w = some (r, w) := by
  rw [outcome_callRules_eq hi, hlinks, Option.map_some, World.leaving_entering hi]

/-- A rule that accepts hands over to the next one. -/
theorem outcome_runLinks_accept {x : InstanceId} {reason : Symbol} {arg : Value} {position : Nat}
    {link : ChainLink β} {links : List (ChainLink β)}
    (h : (e.run (e.language.rule link.rule.body
      ⟨x, reason, link.rule.argument arg, link.definingType⟩)).outcome w = some (.ok .accept, w')) :
    (e.runLinks x reason arg position (link :: links)).outcome w =
      (e.runLinks x reason arg (position + 1) links).outcome w' := by
  rw [runLinks, outcome_bind_ok h]

/-- A rule that rejects ends the chain. -/
theorem outcome_runLinks_reject {x : InstanceId} {reason : Symbol} {arg : Value} {position : Nat}
    {link : ChainLink β} {links : List (ChainLink β)}
    (h : (e.run (e.language.rule link.rule.body
      ⟨x, reason, link.rule.argument arg, link.definingType⟩)).outcome w = some (.ok .reject, w')) :
    (e.runLinks x reason arg position (link :: links)).outcome w =
      some (.ok (.rejected ⟨x, reason, w'.model.types.name link.definingType, position⟩), w') := by
  rw [runLinks, outcome_bind_ok h]
  rfl

/-- A rule that fails ends the chain with its error. -/
theorem outcome_runLinks_error {x : InstanceId} {reason : Symbol} {arg : Value} {position : Nat}
    {link : ChainLink β} {links : List (ChainLink β)} {err : ModelError}
    (h : (e.run (e.language.rule link.rule.body
      ⟨x, reason, link.rule.argument arg, link.definingType⟩)).outcome w = some (.error err, w')) :
    (e.runLinks x reason arg position (link :: links)).outcome w = some (.error err, w') := by
  rw [runLinks]
  exact outcome_bind_error h

end Engine

/-! ## Making an instance -/

/-- **The instance that is made** of a type, at the beginning of its initialization. -/
def Model.newborn (m : Model β) (type : TypeId) (father : Option InstanceId) (name : String)
    (element : Bool) : Instance β :=
  { type, father, element
    order := m.arena.lastOrder + 1
    localName := name
    fields := m.types.initialFields type
    state := .initializing }

/-- **A new instance was put into its place.** -/
structure World.Placing (w : World β σ) (father : Option InstanceId) (id : InstanceId)
    (new : Instance β) (w' : World β σ) : Prop where
  fresh : w.model.arena.get? id = none
  new : w'.model.arena.get? id = some new
  others : ∀ y, y ≠ id → w'.model.arena.get? y =
    if father = some y then (w.model.arena.get? y).map (·.withChild id) else w.model.arena.get? y
  types : w'.model.types = w.model.types
  products : w'.model.products = w.model.products
  config : w'.config = w.config
  keeps : w.Keeps w'

/-- What was there before has another handle. -/
theorem World.Placing.ne {father : Option InstanceId} {new : Instance β} {y : InstanceId}
    (h : w.Placing father id new w') (hy : w.model.arena.get? y = some i) : y ≠ id := by
  rintro rfl
  rw [h.fresh] at hy
  cases hy

/-- The world in which the next number in the order of creation was given out. -/
def World.counting (w : World β σ) : World β σ :=
  { w with model := { w.model with arena := w.model.arena.nextOrder.2 } }

theorem World.Turns.counting (hi : w.model.arena.get? id = some i) :
    w.Turns id i w.counting :=
  ⟨⟨fun y _ => Arena.get?_nextOrder y, rfl, rfl, rfl, rfl, fun _ _ => rfl⟩,
    (Arena.get?_nextOrder id).trans hi, ⟨fun h => h.nextOrder, fun h => h⟩⟩

/-- A new instance is given a number and a slot, and listed. -/
theorem outcome_insertNew (w : World β σ) (type : TypeId) (father : Option InstanceId)
    (name : String) (element : Bool) :
    (insertNew type father name element : Action β σ InstanceId).outcome w =
      (do
        let made ← Action.ofExcept ((w.model.arena.nextOrder.2.insert
          { w.model.newborn type father name element with state := .constructed }).mapError
            .hierarchy)
        modifyModel fun m => { m with arena := made.2.adopt father made.1 }
        return made.1 : Action β σ InstanceId).outcome w.counting := by
  have hmodel : (Action.model : Action β σ (Model β)).outcome w = some (.ok w.model, w) := rfl
  have hcount : (modifyModel fun m => { m with arena := w.model.arena.nextOrder.2 } :
      Action β σ Unit).outcome w = some (.ok (), w.counting) := rfl
  unfold insertNew
  rw [outcome_bind_ok hmodel]
  dsimp only
  rw [outcome_bind_ok hcount]
  cases father <;> rfl

/-- **Placing an instance** puts a new one into its place, or fails for want of a slot. -/
theorem outcome_place (hstored : w.model.arena.Stored) (type : TypeId)
    {father : Option InstanceId} (name : String) (element : Bool)
    (hfather : ∀ f, father = some f → ∃ j, w.model.arena.get? f = some j) :
    (∃ err, (place type father name element : Action β σ InstanceId).outcome w =
        some (.error err, w.counting)) ∨
      ∃ id w', (place type father name element : Action β σ InstanceId).outcome w =
          some (.ok id, w') ∧
        w.Placing father id (w.model.newborn type father name element) w' := by
  let born : Instance β := { w.model.newborn type father name element with state := .constructed }
  have hnew := outcome_insertNew w type father name element
  have hnext := hstored.nextOrder
  unfold place
  cases hins : w.model.arena.nextOrder.2.insert born with
  | error err =>
    refine Or.inl ⟨.hierarchy err, ?_⟩
    rw [hins] at hnew
    exact outcome_bind_error hnew
  | ok out =>
    obtain ⟨id, b⟩ := out
    have hfresh : w.model.arena.get? id = none := by
      have habsent := Arena.get?_eq_none_of_insert hnext hins
      rwa [Arena.get?_nextOrder] at habsent
    have hget : ∀ y, b.get? y = if y = id then some born else w.model.arena.get? y := by
      intro y
      rw [Arena.get?_insert hnext hins, Arena.get?_nextOrder]
    have hself : father ≠ some id := by
      intro hf
      obtain ⟨j, hj⟩ := hfather id hf
      rw [hfresh] at hj
      cases hj
    have hborn : (b.adopt father id).get? id = some born := by
      rw [Arena.get?_adopt, if_neg hself, hget, if_pos rfl]
    let w₁ : World β σ := { w with model := { w.model with arena := b.adopt father id } }
    rw [hins] at hnew
    have hupdate : (update id (fun i => { i with state := .initializing }) :
        Action β σ Unit).outcome w₁ = some (.ok (), { w₁ with model := w₁.model.modify id fun i =>
          { i with state := .initializing } }) := outcome_update hborn _
    refine Or.inr ⟨id, _, (outcome_bind_ok hnew).trans (outcome_bind_ok hupdate), ?_⟩
    exact {
      fresh := hfresh
      new := by
        show ((b.adopt father id).modify id _).get? id = _
        rw [Arena.get?_modify_self, hborn]
        rfl
      others := by
        intro y hy
        show ((b.adopt father id).modify id _).get? y = _
        rw [Arena.get?_modify_of_ne hy, Arena.get?_adopt, hget, if_neg hy]
      types := rfl
      products := rfl
      config := rfl
      keeps := ⟨fun _ => ((hnext.insert hins).adopt father id).modify _, fun h => h⟩ }

/-- Where there is no room for an instance, only its number was given out. -/
theorem eq_counting_of_place_error (hstored : w.model.arena.Stored) {type : TypeId}
    {father : Option InstanceId} {name : String} {element : Bool} {err : ModelError}
    (hfather : ∀ f, father = some f → ∃ j, w.model.arena.get? f = some j)
    (h : (place type father name element : Action β σ InstanceId).outcome w =
      some (.error err, w')) : w' = w.counting := by
  rcases outcome_place hstored type name element hfather with ⟨_, hfull⟩ | ⟨_, _, hplaced, -⟩
  · rw [h] at hfull
    cases hfull
    rfl
  · rw [h] at hplaced
    cases hplaced

/-- An instance whose initialization ends well is live. -/
theorem Engine.outcome_create {e : Engine β σ} {type : TypeId} {father : Option InstanceId}
    {name : String} {args : List Value} {element : Bool} {w₁ w₂ : World β σ}
    (hplace : (place type father name element : Action β σ InstanceId).outcome w =
      some (.ok id, w₁))
    (hinit : (e.initializeWith id args (w₁.finds type initializeName)).outcome
      (w₁.lookingUp type initializeName) = some (.ok (), w₂)) :
    (e.create type father name args element).outcome w = some (.ok id, w₂.settling id) := by
  unfold create
  rw [outcome_bind_ok hplace, outcome_bind_ok (outcome_findMethod _ _), outcome_bind_ok hinit]
  rfl

/-- A method that comes to a result initializes the instance. -/
theorem Engine.outcome_runInitializer {e : Engine β σ} {m : Method β} {args : List Value}
    {answer : Value} (harity : m.arity = none)
    (hrun : (e.run (e.language.initializer m.body ⟨some id, args⟩)).outcome w =
      some (.ok answer, w')) :
    (e.runInitializer id m args).outcome w = some (.ok (), w') := by
  have hinvoke : (e.invokeInitializer id m args).outcome w = some (.ok answer, w') := by
    unfold invokeInitializer
    rw [outcome_bind_ok (outcome_checkCall harity args)]
    exact hrun
  have hattempt : (attempt (e.invokeInitializer id m args)).outcome w =
      some (.ok (.ok answer), w') := by
    rw [outcome_attempt, hinvoke]
    rfl
  unfold runInitializer
  rw [outcome_bind_ok hattempt]
  rfl

/-- **A new instance whose initializer changes nothing but itself.** -/
theorem Engine.outcome_create_initialized {e : Engine β σ} {type definer : TypeId}
    {father : Option InstanceId} {name : String} {args : List Value} {element : Bool}
    {new j : Instance β} {m : Method β} {answer : Value} {w₁ w₂ : World β σ}
    (hplace : (place type father name element : Action β σ InstanceId).outcome w =
      some (.ok id, w₁))
    (hnew : w₁.model.arena.get? id = some new)
    (hfound : w₁.finds type initializeName = some (definer, m)) (harity : m.arity = none)
    (hrun : (e.run (e.language.initializer m.body ⟨some id, args⟩)).outcome
      (w₁.lookingUp type initializeName) = some (.ok answer, w₂))
    (hturn : (w₁.lookingUp type initializeName).Turns id j w₂) :
    (e.create type father name args element).outcome w = some (.ok id, w₂.settling id) ∧
      w₁.Turns id { j with state := .live } (w₂.settling id) := by
  have hagrees := World.Agrees.lookingUp w₁ type initializeName
  refine ⟨outcome_create hplace ?_, ?_⟩
  · rw [hfound]
    exact outcome_runInitializer harity hrun
  · exact (((World.Turns.refl hnew).agrees hagrees).trans hturn).trans
      (.modify hturn.there fun i => { i with state := .live })

end ProductModel
