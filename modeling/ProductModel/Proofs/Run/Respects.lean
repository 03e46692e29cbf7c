import ProductModel.Proofs.Arena.AbsoluteName
import ProductModel.Proofs.Run.Guarded
import ProductModel.Proofs.StoredValues

/-!
# Actions that respect a relation of worlds

Reading leaves traces: names are remembered, and method lookups are.  A relation between the worlds
before and after is `Neutral` if it holds where nothing but that differs, and can be put together
from parts.  Bodies also keep a state of their own, which is no matter to a relation that is
`Tolerant`.  An action `Respects` a relation if it holds between every world and the one the action
comes to, with a result or with an error.

All that reads respects every neutral relation, as long as the bodies do that run for it
(`Engine.Respectful`), and what bodies do respects every tolerant one, as long as the operations do
that they perform.  What writes is up to the relation.

## Design

To a tolerant relation the record of property changes is no matter either, because no operation
reads it except to tell a type about a change.  A relation that looks at the bodies' own states may
still be `Heedless` of this record.
-/

namespace ProductModel

open ProductModel.Action

variable {β σ α γ : Type} {w w' : World β σ} {id : InstanceId} {i : Instance β}

/-- **A relation of worlds that does not notice what reading leaves behind.** -/
structure Neutral (R : World β σ → World β σ → Prop) : Prop where
  refl : ∀ w, R w w
  trans : ∀ {w w' w''}, R w w' → R w' w'' → R w w''
  remembering : ∀ (w : World β σ) {arena : Arena β}, w.model.arena.Remembered arena →
    R w { w with model := { w.model with arena } }
  lookingUp : ∀ (w : World β σ) type name, R w (w.lookingUp type name)

/-- **A relation of worlds that does not notice what is recorded of changes** either. -/
structure Heedless (R : World β σ → World β σ → Prop) : Prop extends Neutral R where
  changing : ∀ (w : World β σ) changes, R w { w with model := { w.model with changes } }

/-- **A relation of worlds that does not notice what bodies note for themselves** either. -/
structure Tolerant (R : World β σ → World β σ → Prop) : Prop extends Heedless R where
  host : ∀ w (host : σ), R w { w with host }

/-- **An action that respects a relation of worlds**, whatever it comes to. -/
structure Respects (R : World β σ → World β σ → Prop) (x : Action β σ α) : Prop where
  always : ∀ w, x.Always w (fun _ => R w) fun _ => R w

variable {R : World β σ → World β σ → Prop}

/-- What the relation says of a result, whichever it is. -/
theorem Respects.of_outcome {x : Action β σ α} (hx : Respects R x) {r : Except ModelError α}
    (hr : x.outcome w = some (r, w')) : R w w' := by
  cases r with
  | ok a => exact (hx.always w).of_ok hr
  | error err => exact (hx.always w).of_error hr

/-- An attempt has the errors of the action among its results. -/
theorem Respects.attempt {x : Action β σ α} (hx : Respects R x) :
    Respects R (Action.attempt x) := by
  constructor
  intro w
  rw [always_attempt]
  exact hx.always w

/-- **A relation that speaks of some worlds only** asks nothing of an action in the others. -/
theorem respects_imp_iff {P : World β σ → Prop} {x : Action β σ α} :
    Respects (fun w w' => P w → R w w') x ↔
      ∀ {w}, P w → x.Always w (fun _ => R w) fun _ => R w := by
  constructor
  · intro hx w hw
    exact (hx.always w).mono (fun _ _ h => h hw) fun _ _ h => h hw
  · intro hx
    constructor
    intro w r w' hr
    cases r with
    | ok a => exact fun hw => (hx hw).of_ok hr
    | error err => exact fun hw => (hx hw).of_error hr

instance : Coe (Heedless R) (Neutral R) := ⟨fun hR => hR.toNeutral⟩

instance : Coe (Tolerant R) (Heedless R) := ⟨fun hR => hR.toHeedless⟩

instance : Coe (Tolerant R) (Neutral R) := ⟨fun hR => hR.toNeutral⟩

section Steps

variable (hR : Neutral R)
include hR

/-- What follows a part that is over. -/
theorem Respects.always_after {x : Action β σ α} (hx : Respects R x) (h : R w w') :
    x.Always w' (fun _ => R w) fun _ => R w :=
  (hx.always w').mono (fun _ _ => hR.trans h) fun _ _ => hR.trans h

namespace Neutral

/-! ## Steps -/

theorem pure (a : α) : Respects R (Pure.pure a : Action β σ α) :=
  ⟨fun w => (always_pure a).mpr (hR.refl w)⟩

theorem throw (err : ModelError) : Respects R (MonadExcept.throw err : Action β σ α) :=
  ⟨fun w => (always_throw err).mpr (hR.refl w)⟩

/-- **A step and what follows it.** -/
theorem bind {x : Action β σ γ} {f : γ → Action β σ α} (hx : Respects R x)
    (hf : ∀ a, Respects R (f a)) : Respects R (x >>= f) := by
  constructor
  intro w
  rw [always_bind]
  exact (hx.always w).mono (fun a w' h => (hf a).always_after hR h) fun _ _ h => h

theorem ofExcept (r : Except ModelError α) : Respects R (Action.ofExcept r : Action β σ α) := by
  cases r with
  | ok a => exact hR.pure a
  | error err => exact hR.throw err

theorem get : Respects R (MonadState.get : Action β σ (World β σ)) :=
  ⟨fun w => always_get.mpr (hR.refl w)⟩

theorem model : Respects R (Action.model : Action β σ (Model β)) :=
  ⟨fun w => always_model.mpr (hR.refl w)⟩

theorem config : Respects R (Action.config : Action β σ Config) :=
  ⟨fun w => always_config.mpr (hR.refl w)⟩

theorem ask (f : Model β → Except ModelError α) : Respects R (Action.ask f : Action β σ α) := by
  unfold Action.ask
  exact hR.bind hR.model fun _ => hR.ofExcept _

theorem find (id : InstanceId) : Respects R (Action.find id : Action β σ _) := hR.ask _

theorem typeOf (id : InstanceId) : Respects R (Action.typeOf id : Action β σ _) := by
  unfold Action.typeOf
  exact hR.bind (hR.find id) fun _ => hR.pure _

theorem describe (id : InstanceId) : Respects R (Action.describe id : Action β σ _) :=
  ⟨fun w => (always_describe id).mpr (hR.remembering w (Arena.remembered_describe id))⟩

theorem absoluteName (id : InstanceId) : Respects R (Action.absoluteName id : Action β σ _) :=
  ⟨fun w => (always_absoluteName id).mpr
    ⟨fun _ _ h => hR.remembering w (Arena.remembered_nameTo h), fun _ _ => hR.refl w⟩⟩

theorem findMethod (type : TypeId) (name : Symbol) :
    Respects R (Action.findMethod type name : Action β σ _) := by
  constructor
  intro w r w' hr
  rw [outcome_findMethod] at hr
  cases hr
  exact hR.lookingUp w type name

/-- A change of an instance that the relation allows. -/
theorem update {f : Instance β → Instance β}
    (hf : ∀ (w : World β σ) i, w.model.arena.get? id = some i →
      R w { w with model := w.model.modify id f }) :
    Respects R (Action.update id f : Action β σ _) :=
  ⟨fun w => (always_update id f).mpr ⟨fun i hi => hf w i hi, fun _ => hR.refl w⟩⟩

/-- Nothing follows an error. -/
theorem throw_bind (err : ModelError) (f : γ → Action β σ α) :
    Respects R (MonadExcept.throw err >>= f : Action β σ α) := by
  constructor
  intro w
  rw [always_bind, always_throw]
  exact hR.refl w

theorem describe_throw (id : InstanceId) (err : String → ModelError) :
    Respects R (Action.describe id >>= fun name => MonadExcept.throw (err name) :
      Action β σ α) :=
  hR.bind (hR.describe id) fun _ => hR.throw _

theorem ensureNotBusy (id : InstanceId) (operation : String) :
    Respects R (Action.ensureNotBusy id operation : Action β σ _) := by
  unfold Action.ensureNotBusy
  refine hR.bind (hR.find id) fun i => ?_
  split
  · exact hR.describe_throw id _
  · exact hR.pure _

/-! ## Attributes and calls -/

theorem resolve (id : InstanceId) (name : Symbol) :
    Respects R (Action.resolve id name : Action β σ _) := by
  unfold Action.resolve
  refine hR.bind (hR.find id) fun i => hR.bind hR.model fun m => ?_
  split
  · exact hR.pure _
  split
  · exact hR.pure _
  split
  · exact hR.pure _
  · refine hR.bind (hR.findMethod _ _) fun found => ?_
    split
    · exact hR.pure _
    · exact hR.describe_throw id _

theorem getAttr (id : InstanceId) (name : Symbol) :
    Respects R (Action.getAttr id name : Action β σ _) := by
  unfold Action.getAttr
  refine hR.bind (hR.resolve id name) fun a => ?_
  split
  · exact hR.pure _
  · exact hR.throw _

theorem notAMethod (id : InstanceId) (name : Symbol) :
    Respects R (Action.notAMethod id name : Action β σ α) := by
  unfold Action.notAMethod
  exact hR.bind (hR.resolve id name) fun _ => hR.throw _

theorem checkCall (m : Method β) (receiver : Option InstanceId) (args : List Value) :
    Respects R (Action.checkCall m receiver args : Action β σ _) := by
  unfold Action.checkCall
  have hreceiver : Respects R (if !m.isStatic && receiver.isNone then
      MonadExcept.throw (.dispatch (.missingReceiver m.name.label))
      else Pure.pure () : Action β σ Unit) := by
    split
    · exact hR.throw _
    · exact hR.pure _
  dsimp only
  split
  · split
    · exact hR.bind (hR.throw _) fun _ => hreceiver
    · exact hreceiver
  · exact hreceiver

theorem declaredProperty (id : InstanceId) (key : Symbol) :
    Respects R (Action.declaredProperty id key : Action β σ _) := by
  unfold Action.declaredProperty
  refine hR.bind (hR.find id) fun i => ?_
  split
  · exact hR.pure _
  · exact hR.describe_throw id _

theorem propertyState (id : InstanceId) (key : Symbol) :
    Respects R (Action.propertyState id key : Action β σ _) := by
  unfold Action.propertyState
  exact hR.bind (hR.declaredProperty id key) fun _ => hR.pure _

/-- Declaring a property is up to the relation. -/
theorem setupProperty {d : PropertyDef} (hsetup : ∀ (w : World β σ) i,
      w.model.arena.get? id = some i → R w { w with model := w.model.modify id fun j =>
        { j with properties := (i.properties.setup d).2 } }) :
    Respects R (Action.setupProperty id d : Action β σ _) := by
  unfold Action.setupProperty
  refine hR.bind (hR.ensureNotBusy id _) fun _ => ⟨fun w => ?_⟩
  rw [always_bind, always_find]
  refine ⟨fun i hi => ?_, fun _ => hR.refl w⟩
  dsimp only
  rw [always_bind_of_ok (outcome_update hi _), always_pure]
  exact hsetup w i hi

end Neutral

end Steps

theorem Heedless.modifyChanges (hR : Heedless R) (f : ChangeHistory → ChangeHistory) :
    Respects R (Action.modifyChanges f : Action β σ _) :=
  ⟨fun w => (always_modifyModel _).mpr (hR.changing w _)⟩

/-! ## Engines -/

/-- **Operations that only read**, the bodies aside that run for them. -/
def Op.reads : Op β → Bool
  | .findMethod _ _ | .resolve _ _ | .getAttr _ _ | .evalBinary _ _ _ => true
  | .call _ _ _ | .callStatic _ _ _ | .callSuper _ _ _ _ | .callSuperIfAny _ _ _ _ => true
  | .absoluteName _ | .describe _ | .snapshot _ | .info => true
  | .propertyState _ _ | .getProperty _ _ | .choices _ _ => true
  | _ => false

/-- **An engine whose bodies respect a relation of worlds**: those of methods and of product
data. -/
structure Engine.Respectful (R : World β σ → World β σ → Prop) (e : Engine β σ) : Prop where
  method : ∀ body call, Respects R (e.run (e.language.method body call))
  evaluate : ∀ body id key, Respects R (e.run (e.language.evaluate body id key))

namespace Engine.Respectful

variable {e : Engine β σ} (h : e.Respectful R) (hR : Neutral R)
include h hR

theorem invoke (m : Method β) (receiver : Option InstanceId) (args : List Value) :
    Respects R (e.invoke m receiver args) := by
  unfold Engine.invoke
  exact hR.bind (hR.checkCall m receiver args) fun _ => h.method _ _

theorem call (id : InstanceId) (name : Symbol) (args : List Value) :
    Respects R (e.call id name args) := by
  unfold Engine.call
  refine hR.bind (hR.typeOf id) fun type => hR.bind (hR.findMethod type name) fun found => ?_
  split
  · exact h.invoke hR _ _ _
  · exact hR.notAMethod id name

theorem callStatic (typeName : String) (name : Symbol) (args : List Value) :
    Respects R (e.callStatic typeName name args) := by
  unfold Engine.callStatic
  refine hR.bind (hR.ask _) fun type => hR.bind (hR.findMethod type name) fun found => ?_
  split
  · exact h.invoke hR _ _ _
  · exact hR.throw _

theorem callSuper (typeName : String) (id : InstanceId) (name : Symbol) (args : List Value) :
    Respects R (e.callSuper typeName id name args) := by
  unfold Engine.callSuper
  refine hR.bind (hR.ask _) fun type => hR.bind hR.model fun m => ?_
  split
  · exact hR.throw _
  · refine hR.bind (hR.findMethod _ name) fun found => ?_
    split
    · exact h.invoke hR _ _ _
    · exact hR.bind hR.model fun _ => hR.throw _

theorem callSuperIfAny (typeName : String) (id : InstanceId) (name : Symbol)
    (args : List Value) : Respects R (e.callSuperIfAny typeName id name args) := by
  unfold Engine.callSuperIfAny
  refine hR.bind (hR.ask _) fun type => hR.bind hR.model fun m => ?_
  split
  · exact hR.pure _
  · refine hR.bind (hR.findMethod _ name) fun found => ?_
    split
    · exact h.invoke hR _ _ _
    · exact hR.pure _

theorem evalBinary (a : Value) (op : BinaryOp) (b : Value) :
    Respects R (e.evalBinary a op b) := by
  unfold Engine.evalBinary
  split
  · exact hR.pure _
  · split
    · refine hR.bind (hR.typeOf _) fun type => hR.bind hR.model fun m => ?_
      split
      · exact h.invoke hR _ _ _
      · exact hR.ofExcept _
    · exact hR.ofExcept _

/-! ## Reading properties -/

theorem getProperty (id : InstanceId) (key : Symbol) : Respects R (e.getProperty id key) := by
  unfold Engine.getProperty
  refine hR.bind (hR.find id) fun i => ?_
  split
  · exact hR.pure _
  · refine hR.bind (hR.findMethod _ _) fun found => ?_
    split
    · exact h.invoke hR _ _ _
    · exact hR.bind (hR.find id) fun _ => hR.pure _

theorem getProperties (id : InstanceId) (keys : List Symbol) :
    Respects R (e.getProperties id keys) := by
  induction keys with
  | nil => exact hR.pure _
  | cons key keys ih =>
    unfold Engine.getProperties
    exact hR.bind (h.getProperty hR id key) fun _ => hR.bind ih fun _ => hR.pure _

theorem capture (id : InstanceId) : Respects R (e.capture id) := by
  unfold Engine.capture
  exact hR.bind (hR.find id) fun i => hR.bind (h.getProperties hR id _) fun _ => hR.pure _

theorem choices (id : InstanceId) (key : Symbol) : Respects R (e.choices id key) := by
  unfold Engine.choices
  refine hR.bind (hR.declaredProperty id key) fun d => ?_
  split
  · exact hR.pure _
  · refine hR.bind (h.call hR _ _ _) fun v => ?_
    split <;> exact hR.pure _
  · exact hR.pure _

theorem refusal (id : InstanceId) (d : PropertyDef) (v : Value) :
    Respects R (e.refusal id d v) := by
  unfold Engine.refusal
  split
  · exact hR.pure _
  · split
    · exact hR.pure _
    · exact hR.bind (h.choices hR id _) fun _ => hR.pure _

theorem checkValue (id : InstanceId) (d : PropertyDef) (v : Value) :
    Respects R (e.checkValue id d v) := by
  unfold Engine.checkValue
  refine hR.bind (h.refusal hR id d v) fun r => ?_
  split
  · exact hR.throw _
  · exact hR.pure _

theorem validate (id : InstanceId) (d : PropertyDef) (v : Value) :
    Respects R (e.validate id d v) := by
  unfold Engine.validate
  refine hR.bind hR.config fun _ => ?_
  split
  · exact h.checkValue hR id d v
  · exact hR.pure _

theorem snapshotTo (limit : Nat) (id : InstanceId) : Respects R (e.snapshotTo limit id) := by
  induction limit generalizing id with
  | zero => exact hR.throw _
  | succ limit ih =>
    have hchildren : ∀ ids : List InstanceId, Respects R (ids.mapM (e.snapshotTo limit)) := by
      intro ids
      induction ids with
      | nil => exact hR.pure _
      | cons id ids ihs =>
        rw [List.mapM_cons]
        exact hR.bind (ih id) fun _ => hR.bind ihs fun _ => hR.pure _
    unfold Engine.snapshotTo
    refine hR.bind (hR.find id) fun i => hR.bind hR.model fun m => ?_
    refine hR.bind (h.getProperties hR id _) fun properties => hR.bind (hR.find id) fun i => ?_
    exact hR.bind (hchildren _) fun _ => hR.pure _

/-! ## Changing properties -/

theorem propsChanged (id : InstanceId) (keys : List Symbol) (asking : Bool) :
    Respects R (e.propsChanged id keys asking) := by
  unfold Engine.propsChanged
  refine hR.bind (hR.typeOf id) fun type => hR.bind (hR.findMethod _ _) fun found => ?_
  split
  · exact hR.pure _
  · exact hR.bind (h.invoke hR _ _ _) fun _ => hR.pure _

theorem propagate (id : InstanceId) (key : Symbol) : Respects R (e.propagate id key) := by
  unfold Engine.propagate
  refine hR.bind (hR.ask _) fun data => ?_
  split
  · exact hR.pure _
  · split
    · exact hR.pure _
    · exact h.evaluate _ _ _

omit hR in
/-- Writing a property is up to the relation where the value is stored. -/
theorem writeProperty (hR : Heedless R) {key : Symbol} {v : Value} (hstore : ∀ (w : World β σ) i,
      w.model.arena.get? id = some i → R w { w with model := w.model.modify id fun i =>
        { i with dynamic := i.dynamic.insert key v } }) :
    Respects R (e.writeProperty id key v) := by
  unfold Engine.writeProperty
  refine hR.bind (hR.typeOf id) fun type => hR.bind (hR.modifyChanges _) fun _ =>
    hR.bind (hR.findMethod _ _) fun found => ?_
  unfold Engine.storeProperty
  split
  · exact hR.bind (h.invoke hR _ _ _) fun _ => hR.pure _
  · exact hR.update hstore

/-- **Once a value is written** the product data follow, and the type is asked. -/
theorem announce (id : InstanceId) (key : Symbol) : Respects R (do
    e.propagate id key
    e.propsChanged id (← Action.currentKeys) true) :=
  hR.bind (h.propagate hR id key) fun _ =>
    hR.bind (hR.bind hR.model fun _ => hR.pure _) fun keys => h.propsChanged hR id keys true

theorem writeAndAsk {key : Symbol} {v : Value} (hwrite : Respects R (e.writeProperty id key v)) :
    Respects R (e.writeAndAsk id key v) := by
  unfold Engine.writeAndAsk
  exact hR.bind hwrite fun _ => h.announce hR id key

theorem restoreValues (hwrite : ∀ key v, Respects R (e.writeProperty id key v))
    (values : List (Symbol × Value)) : Respects R (e.restoreValues id values) := by
  induction values with
  | nil => exact hR.pure _
  | cons entry rest ih =>
    obtain ⟨key, v⟩ := entry
    unfold Engine.restoreValues
    refine hR.bind (h.getProperty hR id key) fun now => ?_
    dsimp only
    split
    · exact hR.bind (hwrite key v) fun _ => ih
    · exact ih

/-- Marking an instance as changed is up to the relation. -/
theorem compare (hmark : ∀ (w : World β σ) i, w.model.arena.get? id = some i →
      R w { w with model := w.model.modify id fun i => { i with changed := true } })
    (before : PropertyCapture) : Respects R (e.compare id before) := by
  unfold Engine.compare
  refine hR.bind (h.capture hR id) fun after => ?_
  dsimp only
  split
  · exact hR.bind (hR.update hmark) fun _ => hR.pure _
  · exact hR.pure _

/-- **Once properties are back** the type is told of the keys, and the verdict is passed on. -/
theorem notice (id : InstanceId) (keys : List Symbol) (accepted : Except ModelError Bool) : Respects R (do
    let noticed ← Action.attempt (e.propsChanged id keys false)
    let _ ← Action.ofExcept accepted
    let _ ← Action.ofExcept noticed) :=
  hR.bind (h.propsChanged hR id keys false).attempt fun _ =>
    hR.bind (hR.ofExcept _) fun _ => hR.bind (hR.ofExcept _) fun _ => hR.pure _

omit h hR in
/-- **A checked change**, of which only three parts are up to the relation: what is written, what is
put back wherever the writing has led to, and what is compared. -/
theorem changeValidated_always (hR : Heedless R) {key : Symbol} {v : Value}
    (hcompare : ∀ before, Respects R (e.compare id before))
    (hcapture : (e.capture id).Always w (fun before w₁ =>
        (e.writeAndAsk id key v).Always w₁.starting (fun _ => R w) (fun _ => R w) ∧
        ∀ accepted w₂, R w w₂ → (e.rollBack id before accepted).Always w₂ (fun _ => R w)
          fun _ => R w) fun _ => R w) :
    (e.changeValidated id key v).Always w (fun _ => R w) fun _ => R w := by
  unfold Engine.changeValidated
  rw [always_bind]
  refine hcapture.mono ?_ fun _ _ hw => hw
  rintro before w₁ ⟨hwrite, hrollBack⟩
  have hstart : (Action.modifyChanges (·.start) : Action β σ Unit).outcome w₁ =
      some (.ok (), w₁.starting) := rfl
  have hfinish : ∀ (result : Except ModelError Bool) w₂, R w w₂ →
      (Action.modifyChanges (·.finish) >>= fun _ => Action.ofExcept result).Always w₂
        (fun _ => R w) fun _ => R w :=
    fun result w₂ hw₂ =>
      (hR.bind (hR.modifyChanges _) fun _ => hR.ofExcept result).always_after hR hw₂
  -- A refusal and an error lead the same way: back, and to the comparison.
  have hback : ∀ accepted w₂, R w w₂ →
      (e.rollBack id before accepted >>= fun _ => e.compare id before).Always w₂
        (fun _ => R w) fun _ => R w := by
    intro accepted w₂ hw₂
    rw [always_bind]
    exact (hrollBack accepted w₂ hw₂).mono
      (fun _ _ hw₃ => (hcompare before).always_after hR hw₃) fun _ _ hw₃ => hw₃
  have happly : (e.applyChange id key v before).Always w₁.starting (fun _ => R w)
      fun _ => R w := by
    unfold Engine.applyChange
    rw [always_bind, always_attempt]
    refine hwrite.mono (fun accepted w₂ hw₂ => ?_) fun err w₂ hw₂ => hback (.error err) w₂ hw₂
    cases accepted with
    | true => exact (hcompare before).always_after hR hw₂
    | false => exact hback (.ok false) w₂ hw₂
  rw [always_bind_of_ok hstart, always_bind, always_attempt]
  exact happly.mono (fun b w₂ hw₂ => hfinish (.ok b) w₂ hw₂)
    fun err w₂ hw₂ => hfinish (.error err) w₂ hw₂

omit hR in
/-- **Setting a value** respects a relation if the change does that follows the check. -/
theorem setProperty_of_change (hR : Heedless R) {key : Symbol} {v : Value}
    (hchange : Respects R (e.changeValidated id key v)) : Respects R (e.setProperty id key v) := by
  unfold Engine.setProperty
  refine hR.bind (hR.modifyChanges _) fun _ => hR.bind (hR.find id) fun i => ?_
  split
  · exact hR.pure _
  · dsimp only
    split
    · exact hR.throw_bind _ _
    · refine hR.bind hR.config fun config => ?_
      split
      · exact hR.bind (h.checkValue hR id _ v) fun _ => hchange
      · exact hchange

/-- **All that reads respects every neutral relation**, as long as the bodies do that run for
it. -/
theorem step_of_reads {op : Op β} (hop : op.reads = true) : Respects R (e.step op) := by
  cases op with
  | findMethod type name => exact hR.findMethod type name
  | resolve x name => exact hR.resolve x name
  | getAttr x name => exact hR.getAttr x name
  | evalBinary a op b => exact h.evalBinary hR a op b
  | call x name args => exact h.call hR x name args
  | callStatic typeName name args => exact h.callStatic hR typeName name args
  | callSuper typeName x name args => exact h.callSuper hR typeName x name args
  | callSuperIfAny typeName x name args => exact h.callSuperIfAny hR typeName x name args
  | absoluteName x => exact hR.absoluteName x
  | describe x => exact hR.describe x
  | snapshot x => exact h.snapshotTo hR _ x
  | info => exact hR.bind hR.get fun _ => hR.pure _
  | propertyState x key => exact hR.propertyState x key
  | getProperty x key => exact h.getProperty hR x key
  | choices x key => exact h.choices hR x key
  | _ => cases hop

end Engine.Respectful

/-! ## Programs -/

/-- **Programs respect what the operations respect.** -/
theorem Respects.run {ω : Type} {ans : ω → Type} {handler : (op : ω) → Action β σ (ans op)}
    (hR : Tolerant R) (hhandler : ∀ op, Respects R (handler op))
    (p : Program ω ans (Model β) σ ModelError α) : Respects R (p.run handler) := by
  induction p with
  | pure a => exact hR.pure a
  | fail err => exact hR.throw err
  | perform op next ih => exact hR.bind (hhandler op).attempt ih
  | look next ih => exact hR.bind hR.get fun w => ih w.model w.host
  | put s next ih => exact hR.bind ⟨fun w => (always_modify _).mpr (hR.host w s)⟩ fun _ => ih

/-! ## Guarded bodies -/

/-- **Guarded bodies respect what the allowed operations respect.** -/
theorem Respects.guarded {ω : Type} {ans : ω → Type} {handler : (op : ω) → Action β σ (ans op)}
    {allowed : Model β → ω → Bool} {refusal : ModelError} (hR : Tolerant R)
    (hhandler : ∀ {w : World β σ} op, allowed w.model op = true →
      (handler op).Always w (fun _ => R w) fun _ => R w)
    (p : Program ω ans (Model β) σ ModelError α) :
    Respects R ((p.guarded allowed refusal).run handler) := by
  induction p with
  | pure a => exact hR.pure a
  | fail err => exact hR.throw err
  | perform op next ih =>
    constructor
    intro w
    show (Program.run handler (if allowed w.model op then _ else _)).Always w _ _
    -- What is not allowed is answered with the refusal, and the body goes on.
    by_cases hop : allowed w.model op = true
    · rw [if_pos hop]
      show (Action.attempt (handler op) >>= fun r =>
        ((next r).guarded allowed refusal).run handler).Always w _ _
      rw [always_bind, always_attempt]
      exact (hhandler op hop).mono (fun a w' h => (ih (.ok a)).always_after hR h)
        fun err w' h => (ih (.error err)).always_after hR h
    · rw [if_neg hop]
      exact (ih (.error refusal)).always w
  | look next ih => exact ⟨fun w => (ih w.model w.host).always w⟩
  | put s next ih =>
    constructor
    intro w
    show (Program.run handler (next.guarded allowed refusal)).Always { w with host := s } _ _
    exact ih.always_after hR (hR.host w s)

end ProductModel
