import ProductModel.Proofs.Run.Mirrors
import ProductModel.Proofs.Run.PropertyChange

/-!
# Operations in worlds that are alike

Two engines are alike if the bodies of one mirror the bodies of the other (`Engine.Alike`).  Then
every operation of one is mirrored by that of the other (`Engine.Alike.step`), since operations look
at nothing else in which worlds that are alike may differ.  Only the question about the counts of a
world tells what its cache has counted, so it is left to each likeness.
-/

namespace ProductModel

open ProductModel.Action

variable {β τ σ : Type} {ℓ : Likeness β τ σ}

/-- **Engines whose bodies mirror each other.** -/
structure Engine.Alike (ℓ : Likeness β τ σ) (e : Engine β τ) (e' : Engine β σ) : Prop where
  method : ∀ body call, Mirrors ℓ (e.run (e.language.method body call))
    (e'.run (e'.language.method body call))
  initializer : ∀ body call, Mirrors ℓ (e.run (e.language.initializer body call))
    (e'.run (e'.language.initializer body call))
  rule : ∀ body call, Mirrors ℓ (e.run (e.language.rule body call))
    (e'.run (e'.language.rule body call))
  evaluate : ∀ body id key, Mirrors ℓ (e.run (e.language.evaluate body id key))
    (e'.run (e'.language.evaluate body id key))
  inspect : ∀ body id, Mirrors ℓ.besideLog (Inspection.run (e.language.inspect body id))
    (Inspection.run (e'.language.inspect body id))
  transformed : ∀ body position rotation {w v}, ℓ.Rel w v →
    ℓ.Rel { w with host := e.language.transformed body position rotation w.host }
      { v with host := e'.language.transformed body position rotation v.host }

namespace Engine.Alike

variable {e : Engine β τ} {e' : Engine β σ} (h : e.Alike ℓ e')
include h

/-! ## Methods -/

theorem invoke (m : Method β) (receiver : Option InstanceId) (args : List Value) :
    Mirrors ℓ (e.invoke m receiver args) (e'.invoke m receiver args) := by
  unfold Engine.invoke
  exact (Mirrors.checkCall m receiver args).bind fun _ => h.method _ _

theorem call (id : InstanceId) (name : Symbol) (args : List Value) :
    Mirrors ℓ (e.call id name args) (e'.call id name args) := by
  unfold Engine.call
  refine (Mirrors.typeOf id).bind fun type => (Mirrors.findMethod type name).bind fun found => ?_
  split
  · exact h.invoke _ _ _
  · exact .notAMethod _ _

theorem callStatic (typeName : String) (name : Symbol) (args : List Value) :
    Mirrors ℓ (e.callStatic typeName name args) (e'.callStatic typeName name args) := by
  unfold Engine.callStatic
  refine (Mirrors.ask _).bind fun type => (Mirrors.findMethod type name).bind fun found => ?_
  split
  · exact h.invoke _ _ _
  · exact .throw _

theorem callSuper (typeName : String) (id : InstanceId) (name : Symbol) (args : List Value) :
    Mirrors ℓ (e.callSuper typeName id name args) (e'.callSuper typeName id name args) := by
  unfold Engine.callSuper
  refine (Mirrors.ask _).bind fun type => Mirrors.model.bind fun m => ?_
  split
  · exact .throw _
  · refine (Mirrors.findMethod _ name).bind fun found => ?_
    split
    · exact h.invoke _ _ _
    · exact Mirrors.model.bind fun _ => .throw _

theorem callSuperIfAny (typeName : String) (id : InstanceId) (name : Symbol)
    (args : List Value) :
    Mirrors ℓ (e.callSuperIfAny typeName id name args)
      (e'.callSuperIfAny typeName id name args) := by
  unfold Engine.callSuperIfAny
  refine (Mirrors.ask _).bind fun type => Mirrors.model.bind fun m => ?_
  split
  · exact .pure _
  · refine (Mirrors.findMethod _ name).bind fun found => ?_
    split
    · exact h.invoke _ _ _
    · exact .pure _

theorem evalBinary (a : Value) (op : BinaryOp) (b : Value) :
    Mirrors ℓ (e.evalBinary a op b) (e'.evalBinary a op b) := by
  unfold Engine.evalBinary
  dsimp only
  split
  · exact .pure _
  · split
    · refine (Mirrors.typeOf _).bind fun type => Mirrors.model.bind fun m => ?_
      split
      · exact h.invoke _ _ _
      · exact .ofExcept _
    · exact .ofExcept _

/-! ## Rules -/

theorem runLinks (x : InstanceId) (reason : Symbol) (arg : Value) (links : List (ChainLink β))
    (position : Nat) :
    Mirrors ℓ (e.runLinks x reason arg position links)
      (e'.runLinks x reason arg position links) := by
  induction links generalizing position with
  | nil => exact .pure _
  | cons link links ih =>
    unfold Engine.runLinks
    refine (h.rule _ _).bind fun verdict => ?_
    split
    · exact ih (position + 1)
    · exact Mirrors.model.bind fun _ => .pure _

theorem callRules (id : InstanceId) (reason : Symbol) (phase : Option RuleKind) (arg : Value) :
    Mirrors ℓ (e.callRules id reason phase arg) (e'.callRules id reason phase arg) := by
  unfold Engine.callRules
  refine (Mirrors.typeOf id).bind fun type => Mirrors.model.bind fun m => ?_
  split
  · exact .pure _
  · refine (Mirrors.updateIfThere id _).bind fun _ => ?_
    refine (h.runLinks id reason arg _ 0).attempt.bind fun result => ?_
    exact (Mirrors.updateIfThere id _).bind fun _ => .ofExcept _

theorem enterStorable (reason : Symbol) (done ids : List InstanceId) (executed : Nat) :
    Mirrors ℓ (e.enterStorable reason done executed ids)
      (e'.enterStorable reason done executed ids) := by
  induction ids generalizing done executed with
  | nil => exact .pure _
  | cons id ids ih =>
    unfold Engine.enterStorable
    refine (h.callRules _ _ _ _).bind fun outcome => ?_
    split
    · exact (Mirrors.update id _).bind fun _ => ih _ _
    · exact (Mirrors.markStorable _ _).bind fun _ => .pure _

theorem leaveStorable (reason : Symbol) (executed : Nat) (rejection : Option Rejection)
    (ids : List InstanceId) :
    Mirrors ℓ (e.leaveStorable reason executed rejection ids)
      (e'.leaveStorable reason executed rejection ids) := by
  induction ids generalizing executed rejection with
  | nil => cases rejection <;> exact .pure _
  | cons id ids ih =>
    rw [Engine.leaveStorable, Engine.leaveStorable]
    refine (h.callRules _ _ _ _).bind fun outcome => ?_
    split <;> exact (Mirrors.update id _).bind fun _ => ih _ _

theorem sweep (kind : Sweep) (root : InstanceId) :
    Mirrors ℓ (e.sweep kind root) (e'.sweep kind root) := by
  unfold Engine.sweep
  refine (Mirrors.find root).bind fun _ => Mirrors.model.bind fun m => ?_
  dsimp only
  split
  · exact h.enterStorable _ _ _ _
  · exact h.leaveStorable _ _ _ _

/-! ## Placement -/

theorem notifyGeometry (id : InstanceId) :
    Mirrors ℓ (e.notifyGeometry id) (e'.notifyGeometry id) := by
  unfold Engine.notifyGeometry
  refine (Mirrors.find id).bind fun i => ?_
  split
  · exact .pure _
  · exact .modify fun hwv => h.transformed _ _ _ hwv

theorem move (id : InstanceId) (reason : Symbol) (arg : Value) (change : Instance β → Instance β) :
    Mirrors ℓ (e.move id reason arg change) (e'.move id reason arg change) := by
  unfold Engine.move
  refine (h.callRules _ _ _ _).bind fun outcome => ?_
  split
  · exact .pure _
  · exact (Mirrors.update id _).bind fun _ => (h.notifyGeometry id).bind fun _ =>
      h.callRules _ _ _ _

theorem pick (id : InstanceId) : Mirrors ℓ (e.pick id) (e'.pick id) := by
  unfold Engine.pick
  refine (Mirrors.find id).bind fun _ => Mirrors.model.bind fun m => ?_
  refine (Mirrors.find _).bind fun target => ?_
  split
  · exact .pure _
  · refine (h.callRules _ _ _ _).bind fun outcome => ?_
    split <;> exact .pure _

/-! ## Creation -/

theorem invokeInitializer (id : InstanceId) (m : Method β) (args : List Value) :
    Mirrors ℓ (e.invokeInitializer id m args) (e'.invokeInitializer id m args) := by
  unfold Engine.invokeInitializer
  exact (Mirrors.checkCall m (some id) args).bind fun _ => h.initializer _ _

theorem runInitializer (id : InstanceId) (m : Method β) (args : List Value) :
    Mirrors ℓ (e.runInitializer id m args) (e'.runInitializer id m args) := by
  unfold Engine.runInitializer
  refine (h.invokeInitializer _ _ _).attempt.bind fun result => ?_
  split
  · exact .pure _
  · refine (Mirrors.modifyModel fun m => ?_).bind fun _ => .throw _
    split <;> rfl

theorem initializeWith (id : InstanceId) (args : List Value) (found : FoundMethod β) :
    Mirrors ℓ (e.initializeWith id args found) (e'.initializeWith id args found) := by
  cases found with
  | none => exact .pure _
  | some entry => exact h.runInitializer _ _ _

theorem create (type : TypeId) (father : Option InstanceId) (name : String) (args : List Value)
    (element : Bool) :
    Mirrors ℓ (e.create type father name args element)
      (e'.create type father name args element) := by
  unfold Engine.create
  refine (Mirrors.place _ _ _ _).bind fun id => (Mirrors.findMethod _ _).bind fun found => ?_
  exact (h.initializeWith id args found).bind fun _ =>
    (Mirrors.updateIfThere id _).bind fun _ => .pure _

theorem instantiate (typeName : String) (father : Option InstanceId) (name : String)
    (args : List Value) :
    Mirrors ℓ (e.instantiate typeName father name args)
      (e'.instantiate typeName father name args) := by
  unfold Engine.instantiate
  refine (Mirrors.instantiableType _).bind fun type => (Mirrors.ofExcept _).bind fun _ => ?_
  split
  · exact (Mirrors.ensureAcceptsChildren _ _).bind fun _ => (Mirrors.ensureNameFree _ _).bind
      fun _ => h.create _ _ _ _ _
  · exact (Mirrors.ensureNameFree _ _).bind fun _ => h.create _ _ _ _ _

theorem addElement (father : InstanceId) (typeName : String) (args : List Value) :
    Mirrors ℓ (e.addElement father typeName args) (e'.addElement father typeName args) := by
  unfold Engine.addElement
  refine (Mirrors.ensureAcceptsChildren _ _).bind fun _ => ?_
  refine (Mirrors.instantiableType _).bind fun type => Mirrors.model.bind fun m => ?_
  refine (h.callRules _ _ _ _).bind fun outcome => ?_
  split
  · exact .pure _
  · refine (Mirrors.find father).bind fun _ => Mirrors.model.bind fun m => ?_
    refine (h.create _ _ _ _ _).bind fun child => (h.callRules _ _ _ _).bind fun outcome => ?_
    split
    · exact .pure _
    · exact (Mirrors.update child _).bind fun _ => .pure _

theorem askRemoval (id : InstanceId) (i : Instance β) :
    Mirrors ℓ (e.askRemoval id i) (e'.askRemoval id i) := by
  unfold Engine.askRemoval
  split
  · exact .pure _
  · split
    · exact .pure _
    · refine (h.callRules _ _ _ _).bind fun outcome => ?_
      split
      · exact .pure _
      · exact (Mirrors.find id).bind fun _ => .pure _

theorem removeIfGranted (id : InstanceId) (i : Instance β) :
    Mirrors ℓ (e.removeIfGranted id i) (e'.removeIfGranted id i) := by
  unfold Engine.removeIfGranted
  refine (h.askRemoval id i).bind fun answer => ?_
  cases answer with
  | some rejection => exact .pure _
  | none =>
    refine (Mirrors.describe id).bind fun _ => .model_bind fun {w v} hwv => ?_
    exact .some rfl (ℓ.edited _ hwv (Or.inl rfl))

theorem remove (id : InstanceId) : Mirrors ℓ (e.remove id) (e'.remove id) := by
  unfold Engine.remove
  refine (Mirrors.find id).bind fun i => ?_
  dsimp only
  split
  · exact .describe_throw_bind _ _ _ _
  · refine Mirrors.model.bind fun m => (Mirrors.ensureNoneBusy _ _).bind fun _ => ?_
    split
    · exact (Mirrors.ensureNotBusy _ _).bind fun _ => h.removeIfGranted id i
    · exact h.removeIfGranted id i

/-! ## Properties -/

theorem getProperty (id : InstanceId) (key : Symbol) :
    Mirrors ℓ (e.getProperty id key) (e'.getProperty id key) := by
  unfold Engine.getProperty
  refine (Mirrors.find id).bind fun i => ?_
  split
  · exact .pure _
  · refine (Mirrors.findMethod _ _).bind fun found => ?_
    split
    · exact h.invoke _ _ _
    · exact (Mirrors.find id).bind fun _ => .pure _

theorem storeProperty (id : InstanceId) (key : Symbol) (v : Value) (found : FoundMethod β) :
    Mirrors ℓ (e.storeProperty id key v found) (e'.storeProperty id key v found) := by
  cases found with
  | none => exact .update _ _
  | some entry => exact (h.invoke _ _ _).bind fun _ => .pure _

theorem writeProperty (id : InstanceId) (key : Symbol) (v : Value) :
    Mirrors ℓ (e.writeProperty id key v) (e'.writeProperty id key v) := by
  unfold Engine.writeProperty
  refine (Mirrors.typeOf id).bind fun type => (Mirrors.modifyChanges _).bind fun _ => ?_
  exact (Mirrors.findMethod _ _).bind fun found => h.storeProperty id key v found

theorem choices (id : InstanceId) (key : Symbol) :
    Mirrors ℓ (e.choices id key) (e'.choices id key) := by
  unfold Engine.choices
  refine (Mirrors.declaredProperty id key).bind fun d => ?_
  split
  · exact .pure _
  · refine (h.call _ _ _).bind fun v => ?_
    split <;> exact .pure _
  · exact .pure _

theorem refusal (id : InstanceId) (d : PropertyDef) (v : Value) :
    Mirrors ℓ (e.refusal id d v) (e'.refusal id d v) := by
  unfold Engine.refusal
  split
  · exact .pure _
  · split
    · exact .pure _
    · exact (h.choices _ _).bind fun _ => .pure _

theorem checkValue (id : InstanceId) (d : PropertyDef) (v : Value) :
    Mirrors ℓ (e.checkValue id d v) (e'.checkValue id d v) := by
  unfold Engine.checkValue
  refine (h.refusal id d v).bind fun r => ?_
  split
  · exact .throw _
  · exact .pure _

theorem propsChanged (id : InstanceId) (keys : List Symbol) (asking : Bool) :
    Mirrors ℓ (e.propsChanged id keys asking) (e'.propsChanged id keys asking) := by
  unfold Engine.propsChanged
  refine (Mirrors.typeOf id).bind fun type => (Mirrors.findMethod _ _).bind fun found => ?_
  split
  · exact .pure _
  · exact (h.invoke _ _ _).bind fun _ => .pure _

theorem getProperties (id : InstanceId) (keys : List Symbol) :
    Mirrors ℓ (e.getProperties id keys) (e'.getProperties id keys) := by
  induction keys with
  | nil => exact .pure _
  | cons key keys ih =>
    unfold Engine.getProperties
    exact (h.getProperty id key).bind fun _ => ih.bind fun _ => .pure _

theorem capture (id : InstanceId) : Mirrors ℓ (e.capture id) (e'.capture id) := by
  unfold Engine.capture
  exact (Mirrors.find id).bind fun i => (h.getProperties id _).bind fun _ => .pure _

theorem restoreValues (id : InstanceId) (values : List (Symbol × Value)) :
    Mirrors ℓ (e.restoreValues id values) (e'.restoreValues id values) := by
  induction values with
  | nil => exact .pure _
  | cons entry rest ih =>
    unfold Engine.restoreValues
    refine (h.getProperty id entry.1).bind fun now => ?_
    dsimp only
    split
    · exact (h.writeProperty id _ _).bind fun _ => ih
    · exact ih

theorem restore (id : InstanceId) (before : PropertyCapture) :
    Mirrors ℓ (e.restore id before) (e'.restore id before) := by
  unfold Engine.restore
  exact (Mirrors.update id _).bind fun _ => h.restoreValues id _

theorem propagate (id : InstanceId) (key : Symbol) :
    Mirrors ℓ (e.propagate id key) (e'.propagate id key) := by
  unfold Engine.propagate
  refine (Mirrors.ask _).bind fun data => ?_
  split
  · exact .pure _
  · split
    · exact .pure _
    · exact h.evaluate _ _ _

theorem writeAndAsk (id : InstanceId) (key : Symbol) (v : Value) :
    Mirrors ℓ (e.writeAndAsk id key v) (e'.writeAndAsk id key v) := by
  unfold Engine.writeAndAsk
  exact (h.writeProperty id key v).bind fun _ => (h.propagate id key).bind fun _ =>
    Mirrors.currentKeys.bind fun _ => h.propsChanged id _ true

theorem rollBack (id : InstanceId) (before : PropertyCapture) (accepted : Except ModelError Bool) :
    Mirrors ℓ (e.rollBack id before accepted) (e'.rollBack id before accepted) := by
  unfold Engine.rollBack
  exact Mirrors.currentKeys.bind fun keys => (h.restore id before).bind fun _ =>
    (h.propsChanged id keys false).attempt.bind fun _ => (Mirrors.ofExcept _).bind fun _ =>
      (Mirrors.ofExcept _).bind fun _ => .pure _

theorem compare (id : InstanceId) (before : PropertyCapture) :
    Mirrors ℓ (e.compare id before) (e'.compare id before) := by
  unfold Engine.compare
  refine (h.capture id).bind fun after => ?_
  dsimp only
  split
  · exact (Mirrors.update id _).bind fun _ => .pure _
  · exact .pure _

theorem applyChange (id : InstanceId) (key : Symbol) (v : Value) (before : PropertyCapture) :
    Mirrors ℓ (e.applyChange id key v before) (e'.applyChange id key v before) := by
  unfold Engine.applyChange
  refine (h.writeAndAsk id key v).attempt.bind fun accepted => ?_
  dsimp only
  split
  · exact h.compare id before
  · exact (h.rollBack id before _).bind fun _ => h.compare id before

theorem changeValidated (id : InstanceId) (key : Symbol) (v : Value) :
    Mirrors ℓ (e.changeValidated id key v) (e'.changeValidated id key v) := by
  unfold Engine.changeValidated
  refine (h.capture id).bind fun before => (Mirrors.modifyChanges _).bind fun _ => ?_
  refine (h.applyChange id key v before).attempt.bind fun _ => ?_
  exact (Mirrors.modifyChanges _).bind fun _ => .ofExcept _

theorem validate (id : InstanceId) (d : PropertyDef) (v : Value) :
    Mirrors ℓ (e.validate id d v) (e'.validate id d v) := by
  unfold Engine.validate
  exact .ifValidating (h.checkValue id d v) (.pure _)

theorem setProperty (id : InstanceId) (key : Symbol) (v : Value) :
    Mirrors ℓ (e.setProperty id key v) (e'.setProperty id key v) := by
  unfold Engine.setProperty
  refine (Mirrors.modifyChanges _).bind fun _ => (Mirrors.find id).bind fun i => ?_
  split
  · exact .pure _
  · dsimp only
    split
    · exact .throw_bind _ _ _
    · exact .ifValidating ((h.checkValue id _ v).bind fun _ => h.changeValidated id key v)
        (h.changeValidated id key v)

/-! ## Checks -/

theorem checkProperties (id : InstanceId) (keys : List Symbol) :
    Mirrors ℓ.besideLog (e.checkProperties id keys) (e'.checkProperties id keys) := by
  induction keys with
  | nil => exact .pure _
  | cons key keys ih =>
    unfold Engine.checkProperties
    refine (Mirrors.find id).bind fun i => ?_
    dsimp only
    split
    · exact ih
    · split
      · refine (h.getProperty id key).withLog.bind fun v => ?_
        split
        · refine (h.checkValue id _ v).withLog.attempt.bind fun r => ?_
          split
          · exact ih
          · exact (Mirrors.inspectHandler (.report id (some key) _)).bind fun _ => ih
        · exact ih
      · exact ih

theorem runChecks (id : InstanceId) (types : List TypeId) :
    Mirrors ℓ.besideLog (e.runChecks id types) (e'.runChecks id types) := by
  induction types with
  | nil => exact .pure _
  | cons type types ih =>
    unfold Engine.runChecks
    refine Mirrors.model.bind fun m => ?_
    dsimp only
    split
    · exact ih
    · exact (h.inspect _ _).bind fun _ => ih

theorem checkAll (ids : List InstanceId) :
    Mirrors ℓ.besideLog (e.checkAll ids) (e'.checkAll ids) := by
  induction ids with
  | nil => exact .pure _
  | cons id ids ih =>
    unfold Engine.checkAll
    refine (Mirrors.find id).bind fun i => (h.checkProperties id _).bind fun _ => ?_
    refine (Mirrors.typeOf id).bind fun type => Mirrors.model.bind fun m => ?_
    exact (h.runChecks id _).bind fun _ => ih

theorem checkConsistency (root : InstanceId) (log : ProblemLog) :
    Mirrors ℓ (e.checkConsistency root log) (e'.checkConsistency root log) := by
  unfold Engine.checkConsistency
  refine Mirrors.bind (Mirrors.collecting ?_ log) fun _ => .pure _
  exact (Mirrors.find root).bind fun _ => Mirrors.model.bind fun _ => h.checkAll _

/-! ## Views of subtrees -/

theorem snapshotTo (limit : Nat) (id : InstanceId) :
    Mirrors ℓ (e.snapshotTo limit id) (e'.snapshotTo limit id) := by
  induction limit generalizing id with
  | zero => exact .throw _
  | succ limit ih =>
    have hchildren : ∀ ids : List InstanceId,
        Mirrors ℓ (ids.mapM (e.snapshotTo limit)) (ids.mapM (e'.snapshotTo limit)) := by
      intro ids
      induction ids with
      | nil => exact .pure _
      | cons id ids ihs =>
        rw [List.mapM_cons, List.mapM_cons]
        exact (ih id).bind fun _ => ihs.bind fun _ => .pure _
    unfold Engine.snapshotTo
    refine (Mirrors.find id).bind fun i => Mirrors.model.bind fun m => ?_
    refine (h.getProperties id _).bind fun properties => (Mirrors.find id).bind fun i => ?_
    exact (hchildren _).bind fun _ => .pure _

/-! ## All operations -/

/-- **Every operation of alike engines is mirrored**, but for the question about the counters. -/
theorem step (op : Op β) (hop : op ≠ .info) : Mirrors ℓ (e.step op) (e'.step op) := by
  cases op with
  | register d => exact .changeTypes fun {r id r'} hr => r.epoch_lt_of_change (c := .register d) hr
  | redefine typeName d =>
    exact .changeTypes fun {r id r'} hr => r.epoch_lt_of_change (c := .redefine typeName d) hr
  | findMethod id name => exact .findMethod id name
  | resolve id name => exact .resolve id name
  | getAttr id name => exact .getAttr id name
  | setAttr id name v => exact .update id _
  | call id name args => exact h.call id name args
  | callStatic typeName name args => exact h.callStatic typeName name args
  | callSuper typeName id name args => exact h.callSuper typeName id name args
  | callSuperIfAny typeName id name args => exact h.callSuperIfAny typeName id name args
  | evalBinary a op b => exact h.evalBinary a op b
  | instantiate typeName father name args => exact h.instantiate typeName father name args
  | addElement father typeName args => exact h.addElement father typeName args
  | remove id => exact h.remove id
  | rename id name => exact .rename id name
  | beElement id => exact .beElement id
  | unBeElement id => exact .unBeElement id
  | absoluteName id => exact .absoluteName id
  | describe id => exact .describe id
  | snapshot id => exact h.snapshotTo _ id
  | setChanged id changed => exact .update id _
  | setFlags id flags => exact .update id _
  | callRules id reason phase arg => exact h.callRules id reason phase arg
  | sweep kind root => exact h.sweep kind root
  | setupProperty id d => exact .setupProperty id d
  | removeProperty id key => exact .removeProperty id key
  | setPropertyState id key state => exact .setPropertyState id key state
  | propertyState id key => exact .propertyState id key
  | getProperty id key => exact h.getProperty id key
  | writeProperty id key v => exact h.writeProperty id key v
  | setProperty id key v => exact h.setProperty id key v
  | choices id key => exact h.choices id key
  | checkConsistency root log => exact h.checkConsistency root log
  | attachGeometry id geometry => exact .update id _
  | setProductData id data => exact .setProductData id data
  | setProgram id program => exact .setProgram id program
  | setPosition id position => exact .update id _
  | translate id delta => exact h.move id _ _ _
  | rotate id axis angle => exact h.move id _ _ _
  | pick id => exact h.pick id
  | info => exact absurd rfl hop

end Engine.Alike

end ProductModel
