import ProductModel.Proofs.Run.Modest
import ProductModel.Proofs.Run.Chronicles
import ProductModel.Proofs.Run.Perform

/-!
# Engines all of whose bodies respect a relation

`Engine.Respectful` is about the bodies of methods and of product data.  An engine is `Considerate`
if all its other bodies respect the relation as well.  With such an engine rule chains, sweeps,
movements and changes of properties respect it too, as far as it allows the changes of instances
that they make themselves (`Allows`).

Many operations change neither types nor the lasting parts of instances (`Op.isPlain`), and respect
every relation that sees no more than these (`Lenient`).  Most such relations are about the model
alone (`Coarse`).
-/

namespace ProductModel

open ProductModel.Action

variable {β σ α γ : Type} {R : World β σ → World β σ → Prop} {w w' : World β σ} {id : InstanceId}
  {i : Instance β}

/-- **A change of an instance that a relation allows.** -/
def Allows (R : World β σ → World β σ → Prop) (id : InstanceId) (f : Instance β → Instance β) :
    Prop :=
  ∀ (w : World β σ) i, w.model.arena.get? id = some i →
    R w { w with model := w.model.modify id f }

/-! ## Changes of one instance -/

/-- Forgetting names changes nothing but remembered names. -/
theorem Arena.remembered_forgetNames (a : Arena β) (ids : List InstanceId) :
    a.Remembered (a.modifyAll ids Instance.forgetName) where
  stored h := h.modifyAll ids _
  roots := roots_modifyAll ids _
  lastOrder := lastOrder_modifyAll ids _
  same y := by
    rw [get?_modifyAll Instance.forgetName_forgetName]
    split
    · rw [Option.map_map]
      exact congrArg (Option.map · _) (funext Instance.forgetName_forgetName)
    · rfl
  size := size_modifyAll ids _

namespace Neutral

variable (hR : Neutral R)
include hR

theorem updateIfThere {f : Instance β → Instance β} (hf : Allows R id f) :
    Respects R (Action.updateIfThere id f : Action β σ _) := by
  constructor
  intro w
  unfold Action.updateIfThere
  rw [always_modifyModel]
  cases hi : w.model.arena.get? id with
  | some i => exact hf w i hi
  | none =>
    have hsame : w.model.modify id f = w.model := by
      rw [Model.modify, Arena.modify_of_get?_eq_none hi]
    rw [hsame]
    exact hR.refl w

theorem ensureNameFree (father : Option InstanceId) (name : String) :
    Respects R (Action.ensureNameFree father name : Action β σ _) := by
  unfold Action.ensureNameFree
  refine hR.bind hR.model fun m => ?_
  dsimp only
  split
  · split
    · exact hR.describe_throw _ _
    · exact hR.pure _
  · split
    · exact hR.throw _
    · exact hR.pure _

theorem setAttr {name : Symbol} {v : Value} (hset : Allows R id fun i => i.setAttribute name v) :
    Respects R (Action.setAttr id name v : Action β σ _) := by
  unfold Action.setAttr
  exact hR.update hset

theorem removeProperty {key : Symbol}
    (hremove : ∀ properties, Allows R id fun i =>
      { i with properties, dynamic := i.dynamic.erase key }) :
    Respects R (Action.removeProperty id key : Action β σ _) := by
  unfold Action.removeProperty
  refine hR.bind (hR.ensureNotBusy id _) fun _ => hR.bind (hR.find id) fun i => ?_
  dsimp only
  split
  · exact hR.bind (hR.update (hremove _)) fun _ => hR.pure _
  · exact hR.pure _

theorem setPropertyState {key : Symbol} {state : PropertyState}
    (hset : Allows R id fun i => { i with properties := i.properties.setState key state }) :
    Respects R (Action.setPropertyState id key state : Action β σ _) := by
  unfold Action.setPropertyState
  refine hR.bind (hR.describe id) fun name => hR.bind (hR.find id) fun i => ?_
  split
  · exact hR.throw_bind _ _
  · exact hR.update hset

theorem markStorable {storable : Bool} (hmark : ∀ x, Allows R x fun i => { i with storable })
    (ids : List InstanceId) : Respects R (Engine.markStorable storable ids : Action β σ _) := by
  induction ids with
  | nil => exact hR.pure _
  | cons id ids ih =>
    unfold Engine.markStorable
    exact hR.bind (hR.update (hmark id)) fun _ => ih

theorem rename {name : String} (hname : Allows R id fun i => { i with localName := name }) :
    Respects R (Action.rename id name : Action β σ _) := by
  have hset : Respects R (Action.modifyModel fun m => m.renamed id name : Action β σ _) := by
    constructor
    intro w
    rw [always_modifyModel]
    -- The names below the instance are forgotten once it has its new name.
    have hforgetting : ∀ ids, R { w with model := w.model.modify id fun i =>
        { i with localName := name } } { w with model := { w.model with
          arena := (w.model.arena.modify id fun i => { i with localName := name }).modifyAll ids
            Instance.forgetName } } := fun ids =>
      hR.remembering { w with model := w.model.modify id fun i => { i with localName := name } }
        (Arena.remembered_forgetNames _ ids)
    cases hi : w.model.arena.get? id with
    | some i => exact hR.trans (hname w i hi) (hforgetting _)
    | none =>
      have hsame := hforgetting (w.model.arena.preorder id)
      rw [Model.modify, Arena.modify_of_get?_eq_none hi] at hsame
      rwa [Model.renamed, Arena.modify_of_get?_eq_none hi]
  unfold Action.rename
  refine hR.bind (hR.ofExcept _) fun _ => hR.bind (hR.ensureNotBusy id _) fun _ =>
    hR.bind (hR.find id) fun i => ?_
  dsimp only
  split
  · exact hR.pure _
  · split
    · exact hR.bind (hR.ensureNotBusy _ _) fun _ => hR.bind (hR.ensureNameFree _ _) fun _ => hset
    · exact hR.bind (hR.ensureNameFree _ _) fun _ => hset

theorem beElement (hset : Allows R id fun i => { i with element := true }) :
    Respects R (Action.beElement id : Action β σ _) := by
  unfold Action.beElement
  refine hR.bind (hR.find id) fun i => ?_
  dsimp only
  split
  · exact hR.bind (hR.describe id) fun _ => hR.throw_bind _ _
  · exact hR.bind (hR.ensureNotBusy id _) fun _ => hR.update hset

theorem unBeElement (hset : Allows R id fun i => { i with element := false }) :
    Respects R (Action.unBeElement id : Action β σ _) := by
  unfold Action.unBeElement
  refine hR.bind (hR.find id) fun i => ?_
  dsimp only
  split
  · exact hR.bind (hR.describe id) fun _ => hR.throw_bind _ _
  · exact hR.bind (hR.ensureNotBusy id _) fun _ => hR.update hset

/-- Registering and redefining types is up to the relation. -/
theorem changeTypes (htypes : ∀ (w : World β σ) types,
      R w { w with model := { w.model with types } })
    (change : Registry β → Except TypeError (TypeId × Registry β)) :
    Respects R (Engine.changeTypes change : Action β σ _) := by
  unfold Engine.changeTypes
  refine hR.bind hR.model fun m => hR.bind (hR.ofExcept _) fun changed => ?_
  exact hR.bind ⟨fun w => (always_modifyModel _).mpr (htypes w _)⟩ fun _ => hR.pure _

end Neutral

/-! ## Beside a log -/

/-- **A relation of worlds, of which those are related that have a log beside them.** -/
def BesideLog (R : World β σ → World β σ → Prop) (w w' : World β (σ × ProblemLog)) : Prop :=
  R (w.project Prod.fst) (w'.project Prod.fst)

theorem Neutral.besideLog (hR : Neutral R) : Neutral (BesideLog R) where
  refl _ := hR.refl _
  trans h h' := hR.trans h h'
  remembering _ _ h := hR.remembering _ h
  lookingUp w type name := by
    rw [BesideLog, ← World.lookingUp_project]
    exact hR.lookingUp _ type name

theorem Respects.withLog {x : Action β σ α} (hx : Respects R x) :
    Respects (BesideLog R) (Action.withLog x) :=
  ⟨fun w => always_withLog.mpr (hx.always (w.project Prod.fst))⟩

theorem Respects.collecting {x : Logged β σ α} (hx : Respects (BesideLog R) x) (log : ProblemLog) :
    Respects R (Action.collecting log x) :=
  ⟨fun w => always_collecting.mpr (hx.always { w with host := (w.host, log) })⟩

/-- Reporting changes the log alone. -/
theorem Neutral.report (hR : Neutral R) (id : InstanceId) (property : Option Symbol)
    (message : String) : Respects (BesideLog R) (Action.report id property message) := by
  have hL := hR.besideLog
  unfold Action.report
  refine hL.bind hL.model fun m => hL.bind (hL.describe id) fun path => ?_
  exact ⟨fun w => (always_modify _).mpr (hR.refl (w.project Prod.fst))⟩

theorem Neutral.inspectHandler (hR : Neutral R) (op : InspectOp) :
    Respects (BesideLog R) (Inspection.handler op) := by
  cases op with
  | getAttr id name => exact hR.besideLog.getAttr id name
  | absoluteName id => exact hR.besideLog.absoluteName id
  | report id property message => exact hR.report id property message

/-- **The check of a type** looks and reports. -/
theorem Tolerant.inspection (hR : Tolerant R) (p : Inspection β σ Unit) :
    Respects (BesideLog R) (Inspection.run p) := by
  have hL := hR.toNeutral.besideLog
  induction p with
  | pure a => exact hL.pure _
  | fail err => exact hL.pure _
  | perform op next ih => exact hL.bind (hR.toNeutral.inspectHandler op).attempt ih
  | look next ih => exact hL.bind hL.get fun w => ih w.model w.host.1
  | put s next ih =>
    exact hL.bind ⟨fun w => (always_modify _).mpr (hR.host (w.project Prod.fst) s)⟩ fun _ => ih

/-! ## Considerate engines -/

/-- **An engine all of whose bodies respect a relation of worlds.** -/
structure Engine.Considerate (R : World β σ → World β σ → Prop) (e : Engine β σ) : Prop
    extends e.Respectful R where
  initializer : ∀ body call, Respects R (e.run (e.language.initializer body call))
  rule : ∀ body call, Respects R (e.run (e.language.rule body call))
  inspect : ∀ body id, Respects (BesideLog R) (Inspection.run (e.language.inspect body id))
  transformed : ∀ body position rotation (w : World β σ),
    R w { w with host := e.language.transformed body position rotation w.host }

namespace Engine.Considerate

variable {e : Engine β σ} (h : e.Considerate R) (hR : Neutral R)
include h hR

theorem invokeInitializer (id : InstanceId) (m : Method β) (args : List Value) :
    Respects R (e.invokeInitializer id m args) := by
  unfold Engine.invokeInitializer
  exact hR.bind (hR.checkCall m _ args) fun _ => h.initializer _ _

/-! ## Rule chains and sweeps -/

theorem runLinks (subject : InstanceId) (reason : Symbol) (arg : Value) (position : Nat)
    (links : List (ChainLink β)) : Respects R (e.runLinks subject reason arg position links) := by
  induction links generalizing position with
  | nil => exact hR.pure _
  | cons link links ih =>
    unfold Engine.runLinks
    dsimp only
    refine hR.bind (h.rule _ _) fun verdict => ?_
    cases verdict with
    | accept => exact ih (position + 1)
    | reject => exact hR.bind hR.model fun _ => hR.pure _

section Chains

variable (henter : ∀ x, Allows R x fun i => { i with busy := i.busy + 1 })
  (hleave : ∀ x, Allows R x fun i => { i with busy := i.busy - 1 })
include henter hleave

/-- **A rule chain** respects what allows instances to be busy. -/
theorem callRules (id : InstanceId) (reason : Symbol) (phase : Option RuleKind) (arg : Value) :
    Respects R (e.callRules id reason phase arg) := by
  unfold Engine.callRules
  refine hR.bind (hR.typeOf id) fun type => hR.bind hR.model fun m => ?_
  split
  · exact hR.pure _
  · refine hR.bind (hR.updateIfThere (henter id)) fun _ => ?_
    refine hR.bind (h.runLinks hR _ _ _ _ _).attempt fun _ => ?_
    exact hR.bind (hR.updateIfThere (hleave id)) fun _ => hR.ofExcept _

variable (hmark : ∀ x storable, Allows R x fun i => { i with storable })
include hmark

theorem enterStorable (reason : Symbol) (done : List InstanceId) (executed : Nat)
    (ids : List InstanceId) : Respects R (e.enterStorable reason done executed ids) := by
  induction ids generalizing done executed with
  | nil => exact hR.pure _
  | cons id ids ih =>
    unfold Engine.enterStorable
    refine hR.bind (h.callRules hR henter hleave _ _ _ _) fun outcome => ?_
    cases outcome with
    | passed n => exact hR.bind (hR.update (hmark id true)) fun _ => ih _ _
    | rejected rejection =>
      exact hR.bind (hR.markStorable (fun x => hmark x false) done) fun _ => hR.pure _

theorem leaveStorable (reason : Symbol) (executed : Nat) (rejection : Option Rejection)
    (ids : List InstanceId) : Respects R (e.leaveStorable reason executed rejection ids) := by
  induction ids generalizing executed rejection with
  | nil => cases rejection <;> exact hR.pure _
  | cons id ids ih =>
    rw [Engine.leaveStorable]
    refine hR.bind (h.callRules hR henter hleave _ _ _ _) fun outcome => ?_
    cases outcome <;> exact hR.bind (hR.update (hmark id false)) fun _ => ih _ _

theorem sweep (kind : Sweep) (root : InstanceId) : Respects R (e.sweep kind root) := by
  unfold Engine.sweep
  refine hR.bind (hR.find root) fun _ => hR.bind hR.model fun m => ?_
  dsimp only
  split
  · exact h.enterStorable hR henter hleave hmark _ _ _ _
  · exact h.leaveStorable hR henter hleave hmark _ _ _ _

end Chains

/-! ## Movements and picks -/

theorem notifyGeometry (id : InstanceId) : Respects R (e.notifyGeometry id) := by
  unfold Engine.notifyGeometry
  refine hR.bind (hR.find id) fun i => ?_
  split
  · exact hR.pure _
  · exact ⟨fun w => (always_modify _).mpr (h.transformed _ _ _ w)⟩

section Chains

variable (henter : ∀ x, Allows R x fun i => { i with busy := i.busy + 1 })
  (hleave : ∀ x, Allows R x fun i => { i with busy := i.busy - 1 })
include henter hleave

theorem move {change : Instance β → Instance β} (hchange : Allows R id change) (reason : Symbol)
    (arg : Value) : Respects R (e.move id reason arg change) := by
  unfold Engine.move
  refine hR.bind (h.callRules hR henter hleave _ _ _ _) fun outcome => ?_
  cases outcome with
  | rejected rejection => exact hR.pure _
  | passed n =>
    refine hR.bind (hR.update hchange) fun _ => hR.bind (h.notifyGeometry hR id) fun _ => ?_
    exact h.callRules hR henter hleave _ _ _ _

theorem translate {delta : Vec3}
    (hmove : Allows R id fun i => { i with position := i.position + delta }) :
    Respects R (e.translate id delta) :=
  h.move hR henter hleave hmove _ _

theorem rotate {axis : Axis} {angle : Float}
    (hturn : Allows R id fun i => { i with rotation := i.rotation.addAt axis angle }) :
    Respects R (e.rotate id axis angle) :=
  h.move hR henter hleave hturn _ _

theorem pick (id : InstanceId) : Respects R (e.pick id) := by
  unfold Engine.pick
  refine hR.bind (hR.find id) fun _ => hR.bind hR.model fun m => ?_
  dsimp only
  refine hR.bind (hR.find _) fun target => ?_
  split
  · exact hR.pure _
  · refine hR.bind (h.callRules hR henter hleave _ _ _ _) fun outcome => ?_
    cases outcome <;> exact hR.pure _

end Chains

end Engine.Considerate

/-! ## Changes of properties -/

namespace Engine.Respectful

variable {e : Engine β σ} (h : e.Respectful R) (hR : Heedless R)
  (hbare : ∀ f : Instance β → Instance β, (∀ i, (f i).bare = i.bare) → Allows R id f)
include h hR hbare

theorem write (key : Symbol) (v : Value) : Respects R (e.writeProperty id key v) :=
  h.writeProperty hR (hbare _ fun _ => rfl)

theorem rollBack (before : PropertyCapture) (accepted : Except ModelError Bool) :
    Respects R (e.rollBack id before accepted) := by
  have hrestore : Respects R (e.restore id before) := by
    unfold Engine.restore
    exact hR.bind (hR.update (hbare _ fun _ => rfl)) fun _ =>
      h.restoreValues hR (h.write hR hbare) before.values
  unfold Engine.rollBack
  exact hR.bind (hR.bind hR.model fun _ => hR.pure _) fun keys => hR.bind hrestore fun _ =>
    h.notice hR id keys accepted

/-- **Setting a value** respects what allows properties and attributes to differ. -/
theorem setProperty (key : Symbol) (v : Value) : Respects R (e.setProperty id key v) := by
  refine h.setProperty_of_change hR ⟨fun w => ?_⟩
  refine changeValidated_always hR
    (h.compare hR (hbare (fun i => { i with changed := true }) fun _ => rfl)) ?_
  refine ((h.capture hR id).always w).mono (fun before w₁ hw₁ => ?_) fun _ _ hw₁ => hw₁
  have hstarted : R w w₁.starting := hR.trans hw₁ (hR.changing w₁ _)
  exact ⟨(h.writeAndAsk hR (h.write hR hbare key v)).always_after hR hstarted,
    fun accepted _ hw₂ => (h.rollBack hR hbare before accepted).always_after hR hw₂⟩

end Engine.Respectful

/-! ## Engines of languages -/

/-- **The engine of a language is considerate** if the operations are that its bodies perform. -/
theorem Language.considerate_engine {L : Language β σ} {allowance : Nat} (hR : Tolerant R)
    (h : ∀ op, Respects R (perform L allowance op)) : (L.engine allowance).Considerate R where
  method body call := .run hR h (L.method body call)
  evaluate body x key := .run hR h (L.evaluate body x key)
  initializer body call := .run hR h (L.initializer body call)
  rule body call := .run hR h (L.rule body call)
  inspect body id := hR.inspection (L.inspect body id)
  transformed _ _ _ w := hR.host w _

/-- The same for guarded bodies and the operations that they are allowed. -/
theorem Language.considerate_guarded {L : Language β σ} {allowance : Nat}
    {allowed : Model β → Op β → Bool} {refusal : ModelError} (hR : Tolerant R)
    (h : ∀ {w : World β σ} op, allowed w.model op = true →
      (perform (L.guarded allowed refusal) allowance op).Always w (fun _ => R w) fun _ => R w) :
    ((L.guarded allowed refusal).engine allowance).Considerate R where
  method body call := .guarded hR h (L.method body call)
  evaluate body x key := .guarded hR h (L.evaluate body x key)
  initializer body call := .guarded hR h (L.initializer body call)
  rule body call := .guarded hR h (L.rule body call)
  inspect body id := hR.inspection (L.inspect body id)
  transformed _ _ _ w := hR.host w _

/-! ## Engines of languages with a chronicle -/

section Chronicled

variable {ρ : Type} {note : Model β → ρ → ρ} {R : World β (σ × ρ) → World β (σ × ρ) → Prop}

/-- **A relation that does not notice the programs' own states** and holds along each note. -/
structure Observant (note : Model β → ρ → ρ)
    (R : World β (σ × ρ) → World β (σ × ρ) → Prop) : Prop extends Neutral R where
  own : ∀ (w : World β (σ × ρ)) s, R w { w with host := (s, w.host.2) }
  chronicling : ∀ w : World β (σ × ρ), R w { w with host := (w.host.1, note w.model w.host.2) }

namespace Observant

variable (hR : Observant note R)
include hR

/-- **Programs with a chronicle respect what the operations respect.** -/
theorem run {ω : Type} {ans : ω → Type} {handler : (op : ω) → Action β (σ × ρ) (ans op)}
    (hhandler : ∀ op, Respects R (handler op)) (p : Program ω ans (Model β) σ ModelError α) :
    Respects R ((p.chronicled note).run handler) := by
  have hN := hR.toNeutral
  have hnote : ∀ {p : Program ω ans (Model β) (σ × ρ) ModelError α},
      Respects R (p.run handler) → Respects R ((p.chronicling note).run handler) :=
    fun hp => ⟨fun w => hp.always_after hN (hR.chronicling w)⟩
  induction p with
  | pure a => exact hnote (hN.pure a)
  | fail err => exact hnote (hN.throw err)
  | perform op next ih => exact hnote (hN.bind (hhandler op).attempt ih)
  | look next ih => exact hnote (hN.bind hN.get fun w => ih w.model w.host.1)
  | put s next ih => exact hnote ⟨fun w => ih.always_after hN (hR.own w s)⟩

/-- The check of a type looks and reports. -/
theorem inspection (p : Inspection β σ Unit) :
    Respects (BesideLog R) (Inspection.run (p.chronicled note)) := by
  have hL := hR.toNeutral.besideLog
  have hnote : ∀ {p : Inspection β (σ × ρ) Unit}, Respects (BesideLog R) (Inspection.run p) →
      Respects (BesideLog R) (Inspection.run (p.chronicling note)) :=
    fun hp => ⟨fun w => hp.always_after hL (hR.chronicling (w.project Prod.fst))⟩
  induction p with
  | pure a => exact hnote (hL.pure _)
  | fail err => exact hnote (hL.pure _)
  | perform op next ih =>
    exact hnote (hL.bind (hR.toNeutral.inspectHandler op).attempt ih)
  | look next ih => exact hnote (hL.bind hL.get fun w => ih w.model w.host.1.1)
  | put s next ih =>
    exact hnote ⟨fun w => ih.always_after hL (hR.own (w.project Prod.fst) s)⟩

/-- **The engine of a language with a chronicle is considerate** if the operations are that its
bodies perform. -/
theorem considerate {L : Language β σ} {handler : (op : Op β) → Action β (σ × ρ) op.Answer}
    (h : ∀ op, Respects R (handler op)) :
    Engine.Considerate R ⟨L.chronicled note, fun body => body.run handler⟩ where
  method body call := hR.run h (L.method body call)
  evaluate body id key := hR.run h (L.evaluate body id key)
  initializer body call := hR.run h (L.initializer body call)
  rule body call := hR.run h (L.rule body call)
  inspect body id := hR.inspection (L.inspect body id)
  transformed _ _ _ w := hR.own w _

end Observant

end Chronicled

/-! ## Consistency checks -/

namespace Engine.Considerate

variable {e : Engine β σ} (h : e.Considerate R) (hR : Neutral R)
include h hR

theorem checkProperties (id : InstanceId) (keys : List Symbol) :
    Respects (BesideLog R) (e.checkProperties id keys) := by
  have hL := hR.besideLog
  induction keys with
  | nil => exact hL.pure _
  | cons key keys ih =>
    unfold Engine.checkProperties
    refine hL.bind (hL.find id) fun i => ?_
    dsimp only
    split
    · exact ih
    · split
      · refine hL.bind (h.getProperty hR id key).withLog fun v => ?_
        split
        · refine hL.bind (h.checkValue hR id _ v).withLog.attempt fun r => ?_
          split
          · exact ih
          · exact hL.bind (hR.report _ _ _) fun _ => ih
        · exact ih
      · exact ih

theorem runChecks (id : InstanceId) (types : List TypeId) :
    Respects (BesideLog R) (e.runChecks id types) := by
  have hL := hR.besideLog
  induction types with
  | nil => exact hL.pure _
  | cons type types ih =>
    unfold Engine.runChecks
    refine hL.bind hL.model fun m => ?_
    dsimp only
    split
    · exact ih
    · exact hL.bind (h.inspect _ _) fun _ => ih

theorem checkAll (ids : List InstanceId) : Respects (BesideLog R) (e.checkAll ids) := by
  have hL := hR.besideLog
  induction ids with
  | nil => exact hL.pure _
  | cons id ids ih =>
    unfold Engine.checkAll
    refine hL.bind (hL.find id) fun i => hL.bind (h.checkProperties hR id _) fun _ => ?_
    refine hL.bind (hL.typeOf id) fun type => hL.bind hL.model fun m => ?_
    exact hL.bind (h.runChecks hR id _) fun _ => ih

/-- **A consistency check** does no more than the bodies that it runs. -/
theorem checkConsistency (root : InstanceId) (log : ProblemLog) :
    Respects R (e.checkConsistency root log) := by
  have hL := hR.besideLog
  have hall : Respects (BesideLog R) (do
      let _ ← Action.find root
      e.checkAll ((← Action.model).arena.preorder root) : Logged β σ Unit) :=
    hL.bind (hL.find root) fun _ => hL.bind hL.model fun _ => h.checkAll hR _
  unfold Engine.checkConsistency
  exact hR.bind (hall.collecting log) fun _ => hR.pure _

end Engine.Considerate

/-! ## Operations on single instances -/

/-- **The lasting part of an instance**: its type, its place in the tree, the stage of its life and
whether it is storable.  Most operations change other things alone. -/
def Instance.lasting (i : Instance β) : Instance β :=
  { i with
    memo := none, fields := {}, dynamic := {}, properties := {}, changed := false, flags := {}
    busy := 0, position := .zero, rotation := .zero, program := none, geometry := none }

/-- A part that belongs to the lasting one. -/
theorem Instance.eq_of_lasting {γ : Type} {i j : Instance β} (h : i.lasting = j.lasting)
    (part : Instance β → γ) (hpart : ∀ i : Instance β, part i.lasting = part i) :
    part i = part j := by
  rw [← hpart i, h, hpart]

/-- **A relation that sees no more of instances than their lasting parts.** -/
structure Lenient (R : World β σ → World β σ → Prop) : Prop extends Neutral R where
  amending : ∀ {id} {f : Instance β → Instance β}, (∀ i, (f i).lasting = i.lasting) → Allows R id f
  products : ∀ (w : World β σ) products, R w { w with model := { w.model with products } }

/-- **Operations that leave types and the lasting parts of instances alone.**  All others create or
remove instances, rearrange the tree, run a sweep or change the types. -/
def Op.isPlain : Op β → Bool
  | .register _ | .redefine _ _ | .instantiate _ _ _ _ | .addElement _ _ _ | .remove _ => false
  | .rename _ _ | .beElement _ | .unBeElement _ | .sweep _ _ => false
  | _ => true

/-- **Operations that write properties themselves**, which is recorded. -/
def Op.isRecorded : Op β → Bool
  | .writeProperty _ _ _ | .setProperty _ _ _ => true
  | _ => false

namespace Engine.Considerate

variable {e : Engine β σ} (h : e.Considerate R) (hR : Lenient R)
include h hR

/-- A chain makes its instance busy and ends that. -/
theorem lenient_callRules (id : InstanceId) (reason : Symbol) (phase : Option RuleKind)
    (arg : Value) : Respects R (e.callRules id reason phase arg) :=
  h.callRules hR.toNeutral (fun _ => hR.amending fun _ => rfl) (fun _ => hR.amending fun _ => rfl)
    id reason phase arg

/-- **Plain operations respect every lenient relation**, if the bodies do that they run, except for
those that write properties. -/
theorem step_of_not_isRecorded {op : Op β} (hop : op.isPlain = true)
    (hrecorded : op.isRecorded = false) : Respects R (e.step op) := by
  have hN := hR.toNeutral
  have henter : ∀ x, Allows R x fun i => { i with busy := i.busy + 1 } :=
    fun _ => hR.amending fun _ => rfl
  have hleave : ∀ x, Allows R x fun i => { i with busy := i.busy - 1 } :=
    fun _ => hR.amending fun _ => rfl
  have hplain : ∀ {id} {f : Instance β → Instance β}, (∀ i, (f i).lasting = i.lasting) →
      Respects R (Action.update id f : Action β σ Unit) :=
    fun hf => hN.update (hR.amending hf)
  cases op with
  | setAttr x name v =>
    refine hN.setAttr (hR.amending fun i => ?_)
    unfold Instance.setAttribute
    split <;> rfl
  | setChanged x changed => exact hplain fun _ => rfl
  | setFlags x flags => exact hplain fun _ => rfl
  | callRules x reason phase arg => exact h.callRules hN henter hleave x reason phase arg
  | setupProperty x d =>
    exact hN.setupProperty fun w i hi => hR.amending (f := fun j =>
      { j with properties := (i.properties.setup d).2 }) (fun _ => rfl) w i hi
  | removeProperty x key => exact hN.removeProperty fun _ => hR.amending fun _ => rfl
  | setPropertyState x key state => exact hN.setPropertyState (hR.amending fun _ => rfl)
  | checkConsistency root log => exact h.checkConsistency hN root log
  | attachGeometry x geometry => exact hplain fun _ => rfl
  | setProductData x data =>
    exact hN.bind (hN.find x) fun _ => ⟨fun w => (always_modifyModel _).mpr (hR.products w _)⟩
  | setProgram x program => exact hN.bind (hN.find program) fun _ => hplain fun _ => rfl
  | setPosition x position => exact hplain fun _ => rfl
  | translate x delta => exact h.translate hN henter hleave (hR.amending fun _ => rfl)
  | rotate x axis angle => exact h.rotate hN henter hleave (hR.amending fun _ => rfl)
  | pick x => exact h.pick hN henter hleave x
  | _ =>
    first
    | exact h.step_of_reads hN rfl
    | exact absurd hop Bool.false_ne_true
    | exact absurd hrecorded.symm Bool.false_ne_true

/-- **Plain operations respect every lenient relation** that is heedless of what is recorded. -/
theorem step_of_isPlain_of_heedless (hT : Heedless R) {op : Op β} (hop : op.isPlain = true) :
    Respects R (e.step op) := by
  have hbare : ∀ {id} (f : Instance β → Instance β), (∀ i, (f i).bare = i.bare) → Allows R id f :=
    fun f hf => hR.amending fun i => Instance.eq_of_bare (hf i) Instance.lasting fun _ => rfl
  cases hrecorded : op.isRecorded with
  | false => exact h.step_of_not_isRecorded hR hop hrecorded
  | true =>
    cases op with
    | writeProperty x key v => exact h.write hT hbare key v
    | setProperty x key v => exact h.setProperty hT hbare key v
    | _ => cases hrecorded

end Engine.Considerate

/-! ## Relations of models -/

/-- **A relation of models that does not notice what reading leaves behind.** -/
structure Undisturbed (M : Model β → Model β → Prop) : Prop where
  refl : ∀ m, M m m
  trans : ∀ {m m' m''}, M m m' → M m' m'' → M m m''
  remembering : ∀ (m : Model β) {arena : Arena β}, m.arena.Remembered arena →
    M m { m with arena }
  changing : ∀ (m : Model β) changes, M m { m with changes }

/-- **A relation of models that sees no more of instances than their lasting parts.** -/
structure Coarse (M : Model β → Model β → Prop) : Prop extends Undisturbed M where
  amending : ∀ (m : Model β) id {f : Instance β → Instance β},
    (∀ i, (f i).lasting = i.lasting) → M m (m.modify id f)
  products : ∀ (m : Model β) products, M m { m with products }

/-- The relation between the models of two worlds. -/
def OfModels (M : Model β → Model β → Prop) (w w' : World β σ) : Prop := M w.model w'.model

variable {M : Model β → Model β → Prop}

theorem Undisturbed.tolerant (hM : Undisturbed M) :
    Tolerant (OfModels M : World β σ → World β σ → Prop) where
  refl w := hM.refl w.model
  trans h h' := hM.trans h h'
  host w _ := hM.refl w.model
  remembering w _ h := hM.remembering w.model h
  lookingUp w type name := by
    rw [OfModels, World.model_lookingUp]
    exact hM.refl w.model
  changing w changes := hM.changing w.model changes

section Plain

variable (hM : Coarse M)
include hM

theorem Coarse.tolerant : Tolerant (OfModels M : World β σ → World β σ → Prop) :=
  hM.toUndisturbed.tolerant

theorem Coarse.lenient : Lenient (OfModels M : World β σ → World β σ → Prop) where
  toNeutral := hM.tolerant.toNeutral
  amending hf w _ _ := hM.amending w.model _ hf
  products w products := hM.products w.model products

/-- **Plain operations respect every coarse relation**, if the bodies do that they run. -/
theorem Engine.Considerate.step_of_isPlain {e : Engine β σ} (h : e.Considerate (OfModels M))
    {op : Op β} (hop : op.isPlain = true) : Respects (OfModels M) (e.step op) :=
  h.step_of_isPlain_of_heedless hM.lenient hM.tolerant.toHeedless hop

end Plain

end ProductModel
