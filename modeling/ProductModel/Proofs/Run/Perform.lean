import ProductModel.Proofs.Run.Creation
import ProductModel.Proofs.Run.Placement
import ProductModel.Proofs.Run.PropertyChange

/-!
# Every operation follows the rules

Consistency checks run beside a log, and their bodies only look and report.  With them, every
operation of a lawful engine follows the rules of a run (`Engine.Lawful.step`).
-/

namespace ProductModel

open ProductModel.Action

variable {β τ α : Type} {seen : τ → Watch β} {pending : List Pending}

/-- A stretch of a run does not depend on where its record is kept. -/
theorem Reached.elsewhere {τ' : Type} {seen' : τ' → Watch β} {w w' : World β τ}
    {v v' : World β τ'} (h : Reached seen pending w w') (hmodel : v.model = w.model)
    (hmodel' : v'.model = w'.model) (hseen : seen' v.host = seen w.host)
    (hseen' : seen' v'.host = seen w'.host) : Reached seen' pending v v' where
  reachable := by rw [hmodel']; exact h.reachable
  aged := by rw [hmodel, hmodel']; exact h.aged
  spared := by rw [hmodel, hmodel']; exact h.spared
  changes := by rw [hmodel, hmodel']; exact h.changes
  work := by rw [hseen, hseen', h.work]
  noted := by rw [hseen, hseen']; exact h.noted

/-! ## Consistency checks -/

/-- The record of a run in the state of a check, which has a log beside it. -/
abbrev besideLog (seen : τ → Watch β) (s : τ × ProblemLog) : Watch β := seen s.1

theorem always_withLog {x : Action β τ α} {w : World β (τ × ProblemLog)}
    {ok : α → World β (τ × ProblemLog) → Prop}
    {err : ModelError → World β (τ × ProblemLog) → Prop} :
    (withLog x).Always w ok err ↔
      x.Always { w with host := w.host.1 }
        (fun a w' => ok a { w' with host := (w'.host, w.host.2) })
        (fun e w' => err e { w' with host := (w'.host, w.host.2) }) := by
  constructor
  · intro h r w' hr
    have hpost := h r { w' with host := (w'.host, w.host.2) } (by rw [outcome_withLog, hr]; rfl)
    cases r <;> exact hpost
  · intro h r w' hr
    rw [outcome_withLog, Option.map_eq_some_iff] at hr
    obtain ⟨⟨r', w''⟩, hx, hr⟩ := hr
    cases hr
    have hpost := h r' w'' hx
    cases r' <;> exact hpost

theorem always_collecting {x : Logged β τ α} {log : ProblemLog} {w : World β τ}
    {ok : Except ModelError α × ProblemLog → World β τ → Prop}
    {err : ModelError → World β τ → Prop} :
    (collecting log x).Always w ok err ↔
      x.Always { w with host := (w.host, log) }
        (fun a w' => ok (.ok a, w'.host.2) { w' with host := w'.host.1 })
        (fun e w' => ok (.error e, w'.host.2) { w' with host := w'.host.1 }) := by
  constructor
  · intro h r w' hr
    have hpost := h (.ok (r, w'.host.2)) { w' with host := w'.host.1 }
      (by rw [outcome_collecting, hr]; rfl)
    cases r <;> exact hpost
  · intro h r w' hr
    rw [outcome_collecting, Option.map_eq_some_iff] at hr
    obtain ⟨⟨r', w''⟩, hx, hr⟩ := hr
    cases hr
    have hpost := h r' w'' hx
    cases r' <;> exact hpost

theorem Follows.withLog {x : Action β τ α} (hx : Follows seen x) :
    Follows (besideLog seen) (withLog x) := by
  constructor
  intro pending w hw
  refine always_withLog.mpr (Always.mono (hx.leads (w := { w with host := w.host.1 }) hw) ?_ ?_)
  · rintro a w' ⟨hreach, -⟩
    exact ⟨hreach.elsewhere rfl rfl rfl rfl, True.intro⟩
  · intro e w' hreach
    exact hreach.elsewhere rfl rfl rfl rfl

theorem Follows.collecting {x : Logged β τ α} (hx : Follows (besideLog seen) x)
    (log : ProblemLog) : Follows seen (collecting log x) := by
  constructor
  intro pending w hw
  refine always_collecting.mpr
    (Always.mono (hx.leads (w := { w with host := (w.host, log) }) hw) ?_ ?_)
  · rintro a w' ⟨hreach, -⟩
    exact ⟨hreach.elsewhere rfl rfl rfl rfl, True.intro⟩
  · intro e w' hreach
    exact ⟨hreach.elsewhere rfl rfl rfl rfl, True.intro⟩

theorem follows_absoluteName (id : InstanceId) :
    Follows seen (absoluteName id : Action β τ String) := by
  constructor
  intro pending w hw
  refine (always_absoluteName id).mpr ⟨?_, fun _ _ => .refl hw⟩
  intro name arena hname
  have hsame : w.model.remembering id = { w.model with arena } := by
    unfold Model.remembering Arena.describe
    rw [hname]
  have hedit : Edit w.model { w.model with arena } := hsame ▸ .remember id
  have hspared : Spared pending w.model { w.model with arena } := hsame ▸ .remembering _ id
  exact ⟨.of_edit hw hedit hspared (.refl _) rfl, True.intro⟩

theorem follows_report (id : InstanceId) (property : Option Symbol) (message : String) :
    Follows (besideLog seen) (report id property message : Logged β τ Unit) := by
  unfold report
  refine Follows.model.bind fun m => (Follows.describe id).bind fun path => ?_
  constructor
  intro pending w hw
  exact (always_modify _).mpr ⟨.of_same hw rfl rfl, True.intro⟩

theorem follows_inspectHandler (op : InspectOp) :
    Follows (besideLog seen) (Inspection.handler op : Logged β τ op.Answer) := by
  cases op with
  | getAttr id name => exact follows_getAttr id name
  | absoluteName id => exact follows_absoluteName id
  | report id property message => exact follows_report id property message

namespace Engine.Lawful

variable {e : Engine β τ} (h : e.Lawful seen)
include h

theorem checkProperties (id : InstanceId) (keys : List Symbol) :
    Follows (besideLog seen) (e.checkProperties id keys) := by
  induction keys with
  | nil => exact .pure _
  | cons key keys ih =>
    unfold Engine.checkProperties
    refine (Follows.find id).bind fun i => ?_
    dsimp only
    split
    · exact ih
    · split
      · refine (h.getProperty id key).withLog.bind fun v => ?_
        split
        · refine (h.checkValue id _ v).withLog.attempt.bind fun r => ?_
          split
          · exact ih
          · exact (follows_report _ _ _).bind fun _ => ih
        · exact ih
      · exact ih

theorem runChecks (id : InstanceId) (types : List TypeId) :
    Follows (besideLog seen) (e.runChecks id types) := by
  induction types with
  | nil => exact .pure _
  | cons type types ih =>
    unfold Engine.runChecks
    refine Follows.model.bind fun m => ?_
    dsimp only
    split
    · exact ih
    · exact (h.inspect _ _).bind fun _ => ih

theorem checkAll (ids : List InstanceId) : Follows (besideLog seen) (e.checkAll ids) := by
  induction ids with
  | nil => exact .pure _
  | cons id ids ih =>
    unfold Engine.checkAll
    refine (Follows.find id).bind fun i => (h.checkProperties id _).bind fun _ => ?_
    refine (Follows.typeOf id).bind fun type => Follows.model.bind fun m => ?_
    exact (h.runChecks id _).bind fun _ => ih

theorem checkConsistency (root : InstanceId) (log : ProblemLog) :
    Follows seen (e.checkConsistency root log) := by
  have hall : Follows (besideLog seen) (do
      let _ ← Action.find root
      e.checkAll ((← Action.model).arena.preorder root) : Logged β τ Unit) :=
    (Follows.find root).bind fun _ => Follows.model.bind fun _ => h.checkAll _
  unfold Engine.checkConsistency
  exact (hall.collecting log).bind fun _ => .pure _

/-! ## Views of subtrees -/

theorem snapshotTo (limit : Nat) (id : InstanceId) : Follows seen (e.snapshotTo limit id) := by
  induction limit generalizing id with
  | zero => exact .throw _
  | succ limit ih =>
    have hchildren : ∀ ids : List InstanceId, Follows seen (ids.mapM (e.snapshotTo limit)) := by
      intro ids
      induction ids with
      | nil => exact .pure _
      | cons id ids ihs =>
        rw [List.mapM_cons]
        exact (ih id).bind fun _ => ihs.bind fun _ => .pure _
    unfold Engine.snapshotTo
    refine (Follows.find id).bind fun i => Follows.model.bind fun m => ?_
    refine (h.getProperties id _).bind fun properties => (Follows.find id).bind fun i => ?_
    exact (hchildren _).bind fun _ => .pure _

end Engine.Lawful

/-! ## Operations -/

theorem follows_changeTypes (change : Registry β → Except TypeError (TypeId × Registry β)) :
    Follows seen (Engine.changeTypes change : Action β τ TypeId) := by
  have hset : ∀ types : Registry β,
      Follows seen (modifyModel fun m => { m with types } : Action β τ Unit) :=
    fun types => .modifyModel (fun _ => rfl) (fun _ => rfl) fun _ => .refl _
  unfold Engine.changeTypes
  refine Follows.model.bind fun m => (Follows.ofExcept _).bind fun r => ?_
  exact (hset r.2).bind fun _ => .pure _

/-- **Every operation of a lawful engine follows the rules of a run.** -/
theorem Engine.Lawful.step {e : Engine β τ} (h : e.Lawful seen) (op : Op β) :
    Follows seen (e.step op) := by
  cases op with
  | register d => exact follows_changeTypes (·.register d)
  | redefine typeName d => exact follows_changeTypes (·.redefine typeName d)
  | findMethod id name => exact .findMethod id name
  | resolve id name => exact follows_resolve id name
  | getAttr id name => exact follows_getAttr id name
  | setAttr id name v => exact follows_setAttr id name v
  | call id name args => exact h.call id name args
  | callStatic typeName name args => exact h.callStatic typeName name args
  | callSuper typeName id name args => exact h.callSuper typeName id name args
  | callSuperIfAny typeName id name args => exact h.callSuperIfAny typeName id name args
  | evalBinary a op b => exact h.evalBinary a op b
  | instantiate typeName father name args => exact h.instantiate typeName father name args
  | addElement father typeName args => exact h.addElement father typeName args
  | remove id => exact h.remove id
  | rename id name => exact follows_rename id name
  | beElement id => exact follows_beElement id
  | unBeElement id => exact follows_unBeElement id
  | absoluteName id => exact follows_absoluteName id
  | describe id => exact .describe id
  | snapshot id => exact h.snapshotTo _ id
  | setChanged id changed => exact .amend (fun _ => rfl) (fun _ => rfl) fun _ => rfl
  | setFlags id flags => exact .amend (fun _ => rfl) (fun _ => rfl) fun _ => rfl
  | callRules id reason phase arg => exact h.callRules id reason phase arg
  | sweep kind root => exact h.sweep kind root
  | setupProperty id d => exact follows_setupProperty id d
  | removeProperty id key => exact follows_removeProperty id key
  | setPropertyState id key state => exact follows_setPropertyState id key state
  | propertyState id key => exact follows_propertyState id key
  | getProperty id key => exact h.getProperty id key
  | writeProperty id key v => exact h.writeProperty id key v
  | setProperty id key v => exact h.setProperty id key v
  | choices id key => exact h.choices id key
  | checkConsistency root log => exact h.checkConsistency root log
  | attachGeometry id geometry => exact follows_attachGeometry id geometry
  | setProductData id data => exact follows_setProductData id data
  | setProgram id program => exact follows_setProgram id program
  | setPosition id position => exact follows_setPosition id position
  | translate id delta => exact h.translate id delta
  | rotate id axis angle => exact h.rotate id axis angle
  | pick id => exact h.pick id
  | info => exact Follows.get.bind fun _ => .pure _

end ProductModel
