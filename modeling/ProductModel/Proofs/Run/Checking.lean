import ProductModel.Proofs.Lifetime
import ProductModel.Proofs.ProblemLogs
import ProductModel.Proofs.Run.Considerate
import ProductModel.Proofs.Run.Outcomes
import ProductModel.Proofs.StoredValues
import ProductModel.Proofs.ValidInstances

/-!
# What a consistency check goes through

A check writes to a log while it walks, asks for values and for choices, and runs the checks of
types.  Here it is told without the log: what is asked in which world, and what is remarked.

* `Engine.Judging` goes through the properties of an instance, and has a verdict for each.
* `Inspection.Tells` runs the check of a type, and has the remarks that it makes.
* `Engine.Hooked` does so for the checks along a lineage, and `Engine.Inspecting` puts both together
  for one instance after the other.

None of this changes anything, provided that choices are computed without changing anything
(`World.Unmoved`).  So every remark is made of an instance as it was when the check began, under the
name that it had then, and what the check comes to beside any log is this log with the remarks added
to it, in their order (`Inspecting.outcome_checkAll`, `exists_inspecting`).
-/

namespace ProductModel

open ProductModel.Action

variable {β σ α : Type} {w w' w'' w₀ w₁ : World β σ} {id : InstanceId} {i : Instance β}

/-! ## Nothing is changed -/

/-- **Nothing is changed**: at most, names and method lookups are remembered, and bodies note
something for themselves. -/
structure World.Unmoved (w w' : World β σ) : Prop where
  arena : w.model.arena.Remembered w'.model.arena
  types : w'.model.types = w.model.types
  changes : w'.model.changes = w.model.changes
  products : w'.model.products = w.model.products
  config : w'.config = w.config
  finds : ∀ type name, w'.finds type name = w.finds type name

/-- The world in which the name of an instance was remembered. -/
def World.remembering (w : World β σ) (id : InstanceId) : World β σ :=
  { w with model := w.model.remembering id }

namespace World.Unmoved

theorem refl (w : World β σ) : w.Unmoved w := ⟨.refl _, rfl, rfl, rfl, rfl, fun _ _ => rfl⟩

theorem trans (h : w.Unmoved w') (h' : w'.Unmoved w'') : w.Unmoved w'' :=
  ⟨h.arena.trans h'.arena, h'.types.trans h.types, h'.changes.trans h.changes,
    h'.products.trans h.products, h'.config.trans h.config,
    fun type name => (h'.finds type name).trans (h.finds type name)⟩

theorem neutral : Neutral (World.Unmoved (β := β) (σ := σ)) where
  refl := refl
  trans := trans
  remembering _ _ h := ⟨h, rfl, rfl, rfl, rfl, fun _ _ => rfl⟩
  lookingUp w type name := by
    have hagrees := World.Agrees.lookingUp w type name
    exact ⟨by rw [hagrees.model]; exact .refl _, by rw [hagrees.model], by rw [hagrees.model],
      by rw [hagrees.model], hagrees.config, hagrees.finds⟩

theorem of_agrees (h : w.Agrees w') : w.Unmoved w' :=
  ⟨by rw [h.model]; exact .refl _, by rw [h.model], by rw [h.model], by rw [h.model], h.config,
    h.finds⟩

theorem remembering (w : World β σ) (id : InstanceId) : w.Unmoved (w.remembering id) :=
  neutral.remembering w (Arena.remembered_describe id)

/-- What bodies note for themselves is no matter. -/
theorem noting (w : World β σ) (host : σ) : w.Unmoved { w with host } :=
  ⟨.refl _, rfl, rfl, rfl, rfl, fun _ _ => rfl⟩

theorem plain {t : PropertyTable} {type : TypeId} (h : w.Unmoved w') (hplain : w.Plain t type) :
    w'.Plain t type := by
  intro key hkey
  rw [h.finds, h.finds]
  exact hplain key hkey

/-- An instance that was there is there, and differs in its remembered name at most. -/
theorem forth (h : w.Unmoved w') (hi : w.model.arena.get? id = some i) :
    ∃ j, w'.model.arena.get? id = some j ∧ j.forgetName = i.forgetName :=
  h.arena.forth hi

/-- What a check asks of an instance first is as it was. -/
theorem declares (h : w.Unmoved w') (hi : w.model.arena.get? id = some i) :
    ∃ j, w'.model.arena.get? id = some j ∧ j.properties = i.properties ∧ j.type = i.type := by
  obtain ⟨j, hj, heq⟩ := h.forth hi
  exact ⟨j, hj, Instance.eq_of_forgetName heq (·.properties) fun _ => rfl,
    Instance.eq_of_forgetName heq (·.type) fun _ => rfl⟩

end World.Unmoved

/-! ## Beside a log -/

/-- The world of an action that writes to a log. -/
def World.beside (w : World β σ) (log : ProblemLog) : World β (σ × ProblemLog) :=
  { w with host := (w.host, log) }

/-- An action that leaves the state of bodies alone does beside a log what it does without. -/
theorem outcome_beside {x : Logged β σ α} {y : Action β σ α} (h : Mirrors (.along Prod.fst) x y)
    (hx : Respects (fun w w' => w'.host = w.host) x) (w : World β σ) (log : ProblemLog) :
    x.outcome (w.beside log) = (y.outcome w).map fun p => (p.1, p.2.beside log) := by
  have hmirror : y.outcome w = _ := h.outcome (w.beside log)
  rw [hmirror, Option.map_map]
  cases hout : x.outcome (w.beside log) with
  | none => rfl
  | some p =>
    obtain ⟨r, v⟩ := p
    have hhost : v.host = (w.host, log) := hx.of_outcome hout
    have hv : v = (v.project Prod.fst).beside log := by
      obtain ⟨model, config, cache, host⟩ := v
      cases hhost
      rfl
    rw [Option.map_some, Function.comp_apply, ← hv]

/-- What an action comes to, it comes to beside a log. -/
theorem outcome_withLog_beside {x : Action β σ α} {r : Except ModelError α} {log : ProblemLog}
    (h : x.outcome w = some (r, w')) :
    (withLog x).outcome (w.beside log) = some (r, w'.beside log) := by
  rw [outcome_withLog]
  exact congrArg (Option.map _) h

/-- An attempt beside a log. -/
theorem outcome_attempt_beside {x : Logged β σ α} {r : Except ModelError α} {log : ProblemLog}
    (h : x.outcome (w.beside log) = some (r, w'.beside log)) :
    (attempt x).outcome (w.beside log) = some (.ok r, w'.beside log) := by
  rw [outcome_attempt, h]
  rfl

/-- Reading leaves the state of bodies alone. -/
theorem neutral_host {τ : Type} : Neutral fun w w' : World β τ => w'.host = w.host where
  refl _ := rfl
  trans h h' := h'.trans h
  remembering _ _ _ := rfl
  lookingUp := World.host_lookingUp

/-- **A remark that a check makes of an instance.** -/
structure Remark where
  property : Option Symbol
  message : String

/-- A remark as a problem of an instance, with the number under which it is kept. -/
def Remark.entry (remark : Remark) (a : Arena β) (id : InstanceId) : Nat × Problem :=
  (a.orderOf id, ⟨id, a.pathName id, remark.property, remark.message⟩)

/-! ## Checks of types -/

/-- The instance that an operation of a check reports a problem of, if it reports one. -/
def InspectOp.subject? : InspectOp → Option InstanceId
  | .report id _ _ => some id
  | _ => none

namespace Inspection

/-- **A check that reports problems of one instance only**, whatever it finds when it looks. -/
def ReportsOn (id : InstanceId) : Inspection β σ Unit → Prop
  | .pure _ => True
  | .fail _ => True
  | .perform op next => (∀ x, op.subject? = some x → x = id) ∧ ∀ r, ReportsOn id (next r)
  | .look next => ∀ m s, ReportsOn id (next m s)
  | .put _ next => ReportsOn id next

/-- **What one operation of a check does** when it is carried out for an instance: it answers a
question, or makes a remark of the instance and with it its name. -/
inductive Does (id : InstanceId) : (op : InspectOp) → World β σ → Except ModelError op.Answer →
    List Remark → World β σ → Prop
  | getAttr {x : InstanceId} {name : Symbol} {w w' : World β σ} {r : Except ModelError Value} :
      (Action.getAttr x name).outcome w = some (r, w') → Does id (.getAttr x name) w r [] w'
  | absoluteName {x : InstanceId} {w w' : World β σ} {r : Except ModelError String} :
      (Action.absoluteName x).outcome w = some (r, w') → Does id (.absoluteName x) w r [] w'
  | report {w : World β σ} (remark : Remark) :
      Does id (.report id remark.property remark.message) w (.ok ()) [remark] (w.remembering id)

/-- **What the check of a type remarks of an instance**, and the world that it leaves. -/
inductive Tells (id : InstanceId) :
    Inspection β σ Unit → World β σ → List Remark → World β σ → Prop
  | pure {u : Unit} {w : World β σ} : Tells id (.pure u) w [] w
  | fail {err : ModelError} {w : World β σ} : Tells id (.fail err) w [] w
  | perform {op : InspectOp} {next : Except ModelError op.Answer → Inspection β σ Unit}
      {r : Except ModelError op.Answer} {first remarks : List Remark} {w w₁ w' : World β σ} :
      Does id op w r first w₁ → Tells id (next r) w₁ remarks w' →
      Tells id (.perform op next) w (first ++ remarks) w'
  | look {next : Model β → σ → Inspection β σ Unit} {remarks : List Remark} {w w' : World β σ} :
      Tells id (next w.model w.host) w remarks w' → Tells id (.look next) w remarks w'
  | put {host : σ} {next : Inspection β σ Unit} {remarks : List Remark} {w w' : World β σ} :
      Tells id next { w with host } remarks w' → Tells id (.put host next) w remarks w'

end Inspection

namespace Engine

/-- **What a check makes of one property**: nothing if it is disabled or has no value, else what is
wrong with its value, if anything, by the check that a change of the property would have to pass
(`checkValue`), whether or not changes are checked.  A wrong value is reported, which makes the name
of the instance. -/
inductive Judges (e : Engine β σ) (id : InstanceId) (i : Instance β) (key : Symbol) :
    World β σ → Option ModelError → World β σ → Prop
  | disabled {d : PropertyDef} {w : World β σ} :
      i.properties.get? key = some d → d.state = .disabled → Judges e id i key w none w
  | unset {d : PropertyDef} {w w' : World β σ} :
      i.properties.get? key = some d → d.state ≠ .disabled →
      (e.getProperty id key).outcome w = some (.ok (i.propertyValue key), w') →
      (i.propertyValue key).isVoid = true → Judges e id i key w none w'
  | fits {d : PropertyDef} {w w₁ w' : World β σ} :
      i.properties.get? key = some d → d.state ≠ .disabled →
      (e.getProperty id key).outcome w = some (.ok (i.propertyValue key), w₁) →
      (i.propertyValue key).isVoid = false →
      (e.checkValue id d (i.propertyValue key)).outcome w₁ = some (.ok (), w') →
      Judges e id i key w none w'
  | misfits {d : PropertyDef} {err : ModelError} {w w₁ w₂ : World β σ} :
      i.properties.get? key = some d → d.state ≠ .disabled →
      (e.getProperty id key).outcome w = some (.ok (i.propertyValue key), w₁) →
      (i.propertyValue key).isVoid = false →
      (e.checkValue id d (i.propertyValue key)).outcome w₁ = some (.error err, w₂) →
      Judges e id i key w (some err) (w₂.remembering id)

/-- **What a check makes of several properties**, one after the other. -/
inductive Judging (e : Engine β σ) (id : InstanceId) (i : Instance β) :
    World β σ → List (Symbol × Option ModelError) → World β σ → Prop
  | nil {w : World β σ} : Judging e id i w [] w
  | cons {key : Symbol} {verdict : Option ModelError} {judged : List (Symbol × Option ModelError)}
      {w w₁ w' : World β σ} :
      e.Judges id i key w verdict w₁ → Judging e id i w₁ judged w' →
      Judging e id i w ((key, verdict) :: judged) w'

/-- **What the checks of several types remark of an instance**, one after the other. -/
inductive Hooked (e : Engine β σ) (id : InstanceId) :
    List TypeId → World β σ → List Remark → World β σ → Prop
  | nil {w : World β σ} : Hooked e id [] w [] w
  | without {type : TypeId} {types : List TypeId} {remarks : List Remark} {w w' : World β σ} :
      (w.model.types.definition? type).bind (·.check) = none →
      Hooked e id types w remarks w' → Hooked e id (type :: types) w remarks w'
  | cons {type : TypeId} {types : List TypeId} {body : β} {told remarks : List Remark}
      {w w₁ w' : World β σ} :
      (w.model.types.definition? type).bind (·.check) = some body →
      Inspection.Tells id (e.language.inspect body id) w told w₁ →
      Hooked e id types w₁ remarks w' → Hooked e id (type :: types) w (told ++ remarks) w'

end Engine

/-- **What a check finds at one instance**: a verdict for each of its properties, and what the checks
of its types have remarked. -/
structure Inspected where
  node : InstanceId
  judged : List (Symbol × Option ModelError)
  told : List Remark

namespace Inspected

/-- The remark that a verdict leads to, if any. -/
def misfit (judged : Symbol × Option ModelError) : Option Remark :=
  judged.2.map fun err => ⟨some judged.1, err.message⟩

/-- All remarks about an instance: those on its properties, and then those of its types. -/
def remarks (v : Inspected) : List Remark := v.judged.filterMap misfit ++ v.told

/-- The problems that are reported of an instance. -/
def entries (v : Inspected) (a : Arena β) : List (Nat × Problem) :=
  v.remarks.map fun remark => remark.entry a v.node

end Inspected

/-- **One instance is checked**, as it was in a world `w₀`: its properties in the order in which they
are presented, and then by the checks of its types, the most general first. -/
inductive Engine.Inspects (e : Engine β σ) (w₀ w : World β σ) (visit : Inspected)
    (w' : World β σ) : Prop
  | intro {i : Instance β} {w₁ : World β σ} :
      w₀.model.arena.get? visit.node = some i →
      visit.judged.map (·.1) = i.properties.keys →
      e.Judging visit.node i w visit.judged w₁ →
      e.Hooked visit.node (w₀.model.types.lineage i.type) w₁ visit.told w' →
      Inspects e w₀ w visit w'

/-- **One instance after the other is checked**, each in the world that the one before it has left. -/
inductive Engine.Inspecting (e : Engine β σ) (w₀ : World β σ) :
    World β σ → List Inspected → World β σ → Prop
  | nil {w : World β σ} : Inspecting e w₀ w [] w
  | cons {visit : Inspected} {visits : List Inspected} {w w₁ w' : World β σ} :
      e.Inspects w₀ w visit w₁ → Inspecting e w₀ w₁ visits w' →
      Inspecting e w₀ w (visit :: visits) w'

/-! ## What stays while a check runs -/

/-- **A world that a check may come to** from a world `w₀`: another state of the run, in which nothing
has changed. -/
structure World.Steady (pending : List Pending) (w₀ w : World β σ) : Prop where
  unmoved : w₀.Unmoved w
  reachable : Reachable pending w.model

variable {pending : List Pending} {L : Language β σ} {n : Nat} {key : Symbol} {d : PropertyDef}
  {v : Value} {log : ProblemLog}

theorem World.Unmoved.orderOf_eq (h : w₀.Unmoved w) (hi : w₀.model.arena.get? id = some i) :
    w.model.arena.orderOf id = w₀.model.arena.orderOf id := by
  obtain ⟨j, hj, heq⟩ := h.forth hi
  rw [Arena.orderOf_eq hi, Arena.orderOf_eq hj]
  exact Instance.eq_of_forgetName heq (·.order) fun _ => rfl

namespace World.Steady

/-- **The name of an instance in messages is the one that it had.** -/
theorem describe_eq (hs : Steady pending w₀ w) (hw : Reachable pending w₀.model)
    (hi : w₀.model.arena.get? id = some i) :
    (w.model.arena.describe id).1 = w₀.model.arena.pathName id := by
  obtain ⟨j, hj, -⟩ := hs.unmoved.forth hi
  have hnamed := hs.unmoved.arena.named (Arena.named_pathName hw.sound.coherent.forest hi)
  rw [hs.reachable.wellNamed.describe_eq_pathName hs.reachable.sound.coherent hj]
  exact (Arena.named_pathName hs.reachable.sound.coherent.forest hj).unique hnamed

/-- An operation that changes nothing leaves a world to which a check may come. -/
theorem after_perform (hs : Steady pending w₀ w) (L : Language β σ) (allowance : Nat) (op : Op β)
    {r : Except ModelError op.Answer} (hr : (perform L allowance op).outcome w = some (r, w'))
    (h : w.Unmoved w') : Steady pending w₀ w' :=
  ⟨hs.unmoved.trans h, hs.reachable.after_perform hr⟩

theorem remembering (hs : Steady pending w₀ w) (id : InstanceId) :
    Steady pending w₀ (w.remembering id) :=
  ⟨hs.unmoved.trans (.remembering w id), hs.reachable.edit (.remember id)⟩

theorem noting (hs : Steady pending w₀ w) (host : σ) : Steady pending w₀ { w with host } :=
  ⟨hs.unmoved.trans (.noting w host), hs.reachable⟩

/-- Reading a property without an accessor gives the value that was stored. -/
theorem getProperty (hs : Steady pending w₀ w) (hi : w₀.model.arena.get? id = some i)
    (hplain : w₀.Plain i.properties i.type) (e : Engine β σ) (key : Symbol) :
    ∃ w', (e.getProperty id key).outcome w = some (.ok (i.propertyValue key), w') ∧
      Steady pending w₀ w' := by
  obtain ⟨j, hj, heq⟩ := hs.unmoved.forth hi
  have hproperties : j.properties = i.properties :=
    Instance.eq_of_forgetName heq (·.properties) fun _ => rfl
  have htype : j.type = i.type := Instance.eq_of_forgetName heq (·.type) fun _ => rfl
  have hvalue : j.propertyValue key = i.propertyValue key :=
    Instance.eq_of_forgetName heq (·.propertyValue key) fun _ => rfl
  have hplain' : w.Plain j.properties j.type := by
    rw [hproperties, htype]
    exact hs.unmoved.plain hplain
  obtain ⟨w', hread, hagrees⟩ := bodiless_getProperty key hj hplain'
  rw [hvalue] at hread
  refine ⟨w', hread e, hs.unmoved.trans (.of_agrees hagrees), ?_⟩
  rw [hagrees.model]
  exact hs.reachable

/-- **A remark is kept** under the number of the instance and its name. -/
theorem outcome_report (hs : Steady pending w₀ w) (hw : Reachable pending w₀.model)
    (hi : w₀.model.arena.get? id = some i) (remark : Remark) (log : ProblemLog) :
    (Action.report id remark.property remark.message).outcome (w.beside log) =
      some (.ok (), (w.remembering id).beside (log.pushAll [remark.entry w₀.model.arena id])) := by
  rw [Remark.entry, ← hs.describe_eq hw hi, ← hs.unmoved.orderOf_eq hi]
  rfl

end World.Steady

/-- **What a check of a value leaves** is what asking for choices leaves, if it does that. -/
theorem Engine.eq_or_choices_of_checkValue {e : Engine β σ} {r : Except ModelError Unit}
    (h : (e.checkValue id d v).outcome w = some (r, w')) :
    w' = w ∨ ∃ answer, (e.choices id d.key).outcome w = some (answer, w') := by
  unfold Engine.checkValue Engine.refusal at h
  cases hvalid : d.validate v with
  | error message =>
    rw [hvalid] at h
    cases h
    exact .inl rfl
  | ok u =>
    cases hmethod : d.kind.choiceMethod? with
    | none =>
      rw [hvalid] at h
      simp only [hmethod] at h
      cases h
      exact .inl rfl
    | some method =>
      rw [hvalid] at h
      simp only [hmethod] at h
      rw [outcome_bind, outcome_bind] at h
      cases hchoices : (e.choices id d.key).outcome w with
      | none => simp [hchoices] at h
      | some out =>
        obtain ⟨answer, w₁⟩ := out
        refine .inr ⟨answer, ?_⟩
        rw [hchoices] at h
        cases answer with
        | error err =>
          cases h
          rfl
        | ok allowed =>
          -- Whether the value is among the choices or not, nothing happens after asking for them.
          by_cases hallowed : allowed.any (·.equals v) = true <;> simp only [hallowed] at h <;>
            · cases h
              rfl

namespace Engine

variable {verdict : Option ModelError} {keys : List Symbol}
  {judged : List (Symbol × Option ModelError)} {r : Except ModelError Unit}
  {last : World β (σ × ProblemLog)}

/-! ## Properties -/

section Properties

variable (hw : Reachable pending w₀.model) (hi : w₀.model.arena.get? id = some i)
  (hplain : w₀.Plain i.properties i.type)
  (hchoices : ∀ {key w r w'}, w₀.Unmoved w →
    ((L.engine n).choices id key).outcome w = some (r, w') → w.Unmoved w')

section
include hchoices

theorem steady_of_checkValue (hs : World.Steady pending w₀ w)
    (h : ((L.engine n).checkValue id d v).outcome w = some (r, w')) :
    World.Steady pending w₀ w' := by
  rcases eq_or_choices_of_checkValue h with rfl | ⟨answer, hanswer⟩
  · exact hs
  · exact hs.after_perform L (n + 1) (.choices id d.key) hanswer
      (hchoices hs.unmoved hanswer)

end

section
include hi hplain

theorem steady_of_getProperty {e : Engine β σ} {r : Except ModelError Value}
    (hs : World.Steady pending w₀ w) (h : (e.getProperty id key).outcome w = some (r, w')) :
    World.Steady pending w₀ w' := by
  obtain ⟨w₁, hread, hs₁⟩ := hs.getProperty hi hplain e key
  cases hread.symm.trans h
  exact hs₁

end

section
include hi hplain hchoices

theorem Judges.steady (h : (L.engine n).Judges id i key w verdict w')
    (hs : World.Steady pending w₀ w) : World.Steady pending w₀ w' := by
  cases h with
  | disabled => exact hs
  | unset _ _ hread _ => exact steady_of_getProperty hi hplain hs hread
  | fits _ _ hread _ hcheck =>
    exact steady_of_checkValue hchoices (steady_of_getProperty hi hplain hs hread) hcheck
  | misfits _ _ hread _ hcheck =>
    have hs₂ := steady_of_checkValue hchoices (steady_of_getProperty hi hplain hs hread) hcheck
    exact hs₂.remembering id

theorem Judging.steady (h : (L.engine n).Judging id i w judged w')
    (hs : World.Steady pending w₀ w) : World.Steady pending w₀ w' := by
  induction h with
  | nil => exact hs
  | cons hfirst _ ih => exact ih (hfirst.steady hi hplain hchoices hs)

include hw

/-- **A verdict is reported, and the next property is looked at.** -/
theorem Judges.outcome_checkProperties (h : (L.engine n).Judges id i key w verdict w')
    (hs : World.Steady pending w₀ w) :
    ((L.engine n).checkProperties id (key :: keys)).outcome (w.beside log) =
      ((L.engine n).checkProperties id keys).outcome (w'.beside (log.pushAll
        (([(key, verdict)].filterMap Inspected.misfit).map (·.entry w₀.model.arena id)))) := by
  obtain ⟨j, hj, hproperties, -⟩ := hs.unmoved.declares hi
  rw [checkProperties, outcome_bind_ok (outcome_find (w := w.beside log) hj), hproperties]
  -- Only a misfit is reported; all other verdicts leave the log alone.
  cases h with
  | disabled hd hdisabled =>
    rw [hd]
    dsimp only
    rw [if_neg fun henabled => henabled hdisabled]
    rfl
  | unset hd henabled hread hvoid =>
    rw [hd]
    dsimp only
    rw [if_pos henabled, outcome_bind_ok (outcome_withLog_beside hread)]
    simp only [hvoid, Bool.not_true, Bool.false_eq_true, if_false]
    rfl
  | fits hd henabled hread hvalue hcheck =>
    rw [hd]
    dsimp only
    rw [if_pos henabled, outcome_bind_ok (outcome_withLog_beside hread)]
    simp only [hvalue, Bool.not_false, if_true]
    rw [outcome_bind_ok (outcome_attempt_beside (outcome_withLog_beside hcheck))]
    rfl
  | @misfits d err w w₁ w₂ hd henabled hread hvalue hcheck =>
    have hs₂ := steady_of_checkValue hchoices (steady_of_getProperty hi hplain hs hread) hcheck
    rw [hd]
    dsimp only
    rw [if_pos henabled, outcome_bind_ok (outcome_withLog_beside hread)]
    simp only [hvalue, Bool.not_false, if_true]
    rw [outcome_bind_ok (outcome_attempt_beside (outcome_withLog_beside hcheck))]
    dsimp only
    rw [outcome_bind_ok (hs₂.outcome_report hw hi ⟨some key, err.message⟩ log)]
    rfl

/-- **What several properties come to**: their misfits are added to the log. -/
theorem Judging.outcome_checkProperties (h : (L.engine n).Judging id i w judged w')
    (hs : World.Steady pending w₀ w) :
    ((L.engine n).checkProperties id (judged.map (·.1))).outcome (w.beside log) =
      some (.ok (), w'.beside (log.pushAll
        ((judged.filterMap Inspected.misfit).map (·.entry w₀.model.arena id)))) := by
  induction h generalizing log with
  | nil => rfl
  | @cons key verdict judged w w₁ w' hfirst _ ih =>
    rw [List.map_cons, hfirst.outcome_checkProperties hw hi hplain hchoices hs,
      ih (hfirst.steady hi hplain hchoices hs), ← ProblemLog.pushAll_append, ← List.map_append,
      ← List.filterMap_append]
    rfl

end

section
include hi hplain

/-- A property that was looked at has a verdict. -/
theorem exists_judges (hd : i.properties.get? key = some d) (hs : World.Steady pending w₀ w)
    (h : ((L.engine n).checkProperties id (key :: keys)).outcome (w.beside log) =
      some (r, last)) :
    ∃ verdict w', (L.engine n).Judges id i key w verdict w' := by
  obtain ⟨j, hj, hproperties, -⟩ := hs.unmoved.declares hi
  by_cases hstate : d.state = .disabled
  · exact ⟨none, w, .disabled hd hstate⟩
  obtain ⟨w₁, hread, -⟩ := hs.getProperty hi hplain (L.engine n) key
  cases hvalue : (i.propertyValue key).isVoid with
  | true => exact ⟨none, w₁, .unset hd hstate hread hvalue⟩
  | false =>
    cases hcheck : ((L.engine n).checkValue id d (i.propertyValue key)).outcome w₁ with
    | some out =>
      obtain ⟨answer, w₂⟩ := out
      cases answer with
      | ok u => exact ⟨none, w₂, .fits hd hstate hread hvalue hcheck⟩
      | error err => exact ⟨some err, _, .misfits hd hstate hread hvalue hcheck⟩
    | none =>
      -- A check without an outcome leaves the whole without one.
      have hnone : (attempt (withLog ((L.engine n).checkValue id d
          (i.propertyValue key)))).outcome (w₁.beside log) = none := by
        rw [outcome_attempt, outcome_withLog]
        exact congrArg (Option.map _ ∘ Option.map _) hcheck
      rw [checkProperties, outcome_bind_ok (outcome_find (w := w.beside log) hj), hproperties,
        hd] at h
      dsimp only at h
      rw [if_pos hstate, outcome_bind_ok (outcome_withLog_beside hread)] at h
      simp only [hvalue, Bool.not_false, if_true] at h
      rw [outcome_bind_none hnone] at h
      cases h

end

section
include hw hi hplain hchoices

/-- Properties that were looked at have verdicts. -/
theorem exists_judging (hkeys : ∀ key ∈ keys, ∃ d, i.properties.get? key = some d)
    (hs : World.Steady pending w₀ w)
    (h : ((L.engine n).checkProperties id keys).outcome (w.beside log) = some (r, last)) :
    ∃ judged w', judged.map (·.1) = keys ∧ (L.engine n).Judging id i w judged w' := by
  induction keys generalizing w log with
  | nil => exact ⟨[], w, rfl, .nil⟩
  | cons key keys ih =>
    obtain ⟨d, hd⟩ := hkeys key List.mem_cons_self
    obtain ⟨verdict, w₁, hfirst⟩ := exists_judges hi hplain hd hs h
    rw [hfirst.outcome_checkProperties hw hi hplain hchoices hs] at h
    obtain ⟨judged, w', hjudged, hrest⟩ := ih
      (fun key hkey => hkeys key (List.mem_cons_of_mem _ hkey))
      (hfirst.steady hi hplain hchoices hs) h
    exact ⟨(key, verdict) :: judged, w', congrArg (key :: ·) hjudged, .cons hfirst hrest⟩

end

end Properties

end Engine

/-! ## Checks of types -/

namespace Inspection

variable {p : Inspection β σ Unit} {op : InspectOp} {answer : Except ModelError op.Answer}
  {remarks : List Remark} {r : Except ModelError Unit} {last : World β (σ × ProblemLog)}

theorem Does.steady (h : Does id op w answer remarks w') (hs : World.Steady pending w₀ w)
    (L : Language β σ) : World.Steady pending w₀ w' := by
  cases h with
  | @getAttr x name _ _ _ hout =>
    exact hs.after_perform L 1 (.getAttr x name) hout
      ((World.Unmoved.neutral.getAttr x name).of_outcome hout)
  | @absoluteName x _ _ _ hout =>
    exact hs.after_perform L 1 (.absoluteName x) hout
      ((World.Unmoved.neutral.absoluteName x).of_outcome hout)
  | report => exact hs.remembering id

theorem Tells.steady (h : Tells id p w remarks w') (hs : World.Steady pending w₀ w)
    (L : Language β σ) : World.Steady pending w₀ w' := by
  induction h with
  | pure => exact hs
  | fail => exact hs
  | perform hdoes _ ih => exact ih (hdoes.steady hs L)
  | look _ ih => exact ih hs
  | put _ ih => exact ih (hs.noting _)

section
variable (hw : Reachable pending w₀.model) (hi : w₀.model.arena.get? id = some i)
include hw hi

/-- **What an operation of a check comes to**: its remark, if it makes one, is added to the log. -/
theorem Does.outcome_attempt (h : Does id op w answer remarks w') (hs : World.Steady pending w₀ w) :
    (attempt (handler op)).outcome (w.beside log) =
      some (.ok answer, w'.beside (log.pushAll (remarks.map (·.entry w₀.model.arena id)))) := by
  refine (Action.outcome_attempt _ _).trans ?_
  cases h with
  | @getAttr x name _ _ _ hout =>
    show ((Action.getAttr x name : Logged β σ Value).outcome _).map _ = _
    rw [outcome_beside (.getAttr x name) (neutral_host.getAttr x name), hout]
    rfl
  | @absoluteName x _ _ _ hout =>
    show ((Action.absoluteName x : Logged β σ String).outcome _).map _ = _
    rw [outcome_beside (.absoluteName x) (neutral_host.absoluteName x), hout]
    rfl
  | report remark => exact congrArg (Option.map _) (hs.outcome_report hw hi remark log)

omit hw hi in
/-- An operation that was carried out, and reports on the instance if at all, did something. -/
theorem exists_does (hsubject : ∀ x, op.subject? = some x → x = id)
    {out : Except ModelError (Except ModelError op.Answer) × World β (σ × ProblemLog)}
    (h : (attempt (handler op)).outcome (w.beside log) = some out) :
    ∃ answer remarks w', Does id op w answer remarks w' := by
  replace h := (Action.outcome_attempt _ _).symm.trans h
  cases op with
  | getAttr x name =>
    replace h : ((Action.getAttr x name : Logged β σ Value).outcome _).map _ = _ := h
    rw [outcome_beside (.getAttr x name) (neutral_host.getAttr x name), Option.map_map,
      Option.map_eq_some_iff] at h
    obtain ⟨⟨answer, w'⟩, hout, -⟩ := h
    exact ⟨answer, [], w', .getAttr hout⟩
  | absoluteName x =>
    replace h : ((Action.absoluteName x : Logged β σ String).outcome _).map _ = _ := h
    rw [outcome_beside (.absoluteName x) (neutral_host.absoluteName x), Option.map_map,
      Option.map_eq_some_iff] at h
    obtain ⟨⟨answer, w'⟩, hout, -⟩ := h
    exact ⟨answer, [], w', .absoluteName hout⟩
  | report x property message =>
    obtain rfl : x = id := hsubject x rfl
    exact ⟨.ok (), _, _, .report ⟨property, message⟩⟩

/-- **What a check of a type comes to**: its remarks are added to the log. -/
theorem Tells.outcome_run (h : Tells id p w remarks w') (hs : World.Steady pending w₀ w)
    (L : Language β σ) :
    (run p).outcome (w.beside log) =
      some (.ok (), w'.beside (log.pushAll (remarks.map (·.entry w₀.model.arena id)))) := by
  induction h generalizing log with
  | pure => rfl
  | fail => rfl
  | perform hdoes _ ih =>
    rw [run, outcome_bind_ok (hdoes.outcome_attempt hw hi hs), ih (hdoes.steady hs L),
      List.map_append, ProblemLog.pushAll_append]
  | look _ ih => exact ih hs
  | put _ ih => exact ih (hs.noting _)

/-- A check of a type that was run has remarks. -/
theorem exists_tells (hp : p.ReportsOn id) (hs : World.Steady pending w₀ w) (L : Language β σ)
    (h : (run p).outcome (w.beside log) = some (r, last)) :
    ∃ remarks w', Tells id p w remarks w' := by
  induction p generalizing w log with
  | pure u => exact ⟨[], w, .pure⟩
  | fail err => exact ⟨[], w, .fail⟩
  | perform op next ih =>
    obtain ⟨hsubject, hnext⟩ := hp
    rw [run] at h
    -- The check ends, so the operation does, and with it all that comes after.
    cases hattempt : (attempt (handler op)).outcome (w.beside log) with
    | none =>
      rw [outcome_bind_none hattempt] at h
      cases h
    | some out =>
      obtain ⟨answer, first, w₁, hdoes⟩ := exists_does hsubject hattempt
      rw [outcome_bind_ok (hdoes.outcome_attempt hw hi hs)] at h
      obtain ⟨remarks, w', htells⟩ := ih _ (hnext _) (hdoes.steady hs L) h
      exact ⟨_, w', .perform hdoes htells⟩
  | look next ih =>
    obtain ⟨remarks, w', htells⟩ := ih w.model w.host (hp w.model w.host) hs h
    exact ⟨remarks, w', .look htells⟩
  | put host next ih =>
    obtain ⟨remarks, w', htells⟩ := ih hp (hs.noting host) h
    exact ⟨remarks, w', .put htells⟩

end

end Inspection

/-! ## Instances -/

/-- **Instances that can be checked** as they are in a world `w₀`: their properties have no accessors,
the methods that compute their choices change nothing, and the checks of their types report on the
instance that is checked only. -/
structure Language.Checkable (L : Language β σ) (n : Nat) (w₀ : World β σ) (ids : List InstanceId) :
    Prop where
  plain : ∀ {y i}, y ∈ ids → w₀.model.arena.get? y = some i → w₀.Plain i.properties i.type
  choices : ∀ {y key w r w'}, y ∈ ids → w₀.Unmoved w →
    ((L.engine n).choices y key).outcome w = some (r, w') → w.Unmoved w'
  reports : ∀ {y i type body}, y ∈ ids → w₀.model.arena.get? y = some i →
    type ∈ w₀.model.types.lineage i.type →
    (w₀.model.types.definition? type).bind (·.check) = some body → (L.inspect body y).ReportsOn y

namespace Engine

variable {types : List TypeId} {told : List Remark} {r : Except ModelError Unit}
  {last : World β (σ × ProblemLog)} {ids : List InstanceId} {visit : Inspected}
  {visits : List Inspected}

theorem Hooked.steady (h : (L.engine n).Hooked id types w told w') (hs : World.Steady pending w₀ w) :
    World.Steady pending w₀ w' := by
  induction h with
  | nil => exact hs
  | without _ _ ih => exact ih hs
  | cons _ htells _ ih => exact ih (htells.steady hs L)

section
variable (hw : Reachable pending w₀.model)
include hw

/-- **What the checks of several types come to**: their remarks are added to the log. -/
theorem Hooked.outcome_runChecks (hi : w₀.model.arena.get? id = some i)
    (h : (L.engine n).Hooked id types w told w') (hs : World.Steady pending w₀ w) :
    ((L.engine n).runChecks id types).outcome (w.beside log) =
      some (.ok (), w'.beside (log.pushAll (told.map (·.entry w₀.model.arena id)))) := by
  induction h generalizing log with
  | nil => rfl
  | @without type types remarks w w' hnone _ ih =>
    have hmodel : (Action.model : Logged β σ (Model β)).outcome (w.beside log) =
        some (.ok w.model, w.beside log) := rfl
    rw [runChecks, outcome_bind_ok hmodel, hnone]
    exact ih hs
  | @cons type types body told remarks w w₁ w' hbody htells _ ih =>
    have hmodel : (Action.model : Logged β σ (Model β)).outcome (w.beside log) =
        some (.ok w.model, w.beside log) := rfl
    rw [runChecks, outcome_bind_ok hmodel, hbody]
    dsimp only
    rw [outcome_bind_ok (htells.outcome_run hw hi hs L), ih (htells.steady hs L), List.map_append,
      ProblemLog.pushAll_append]

/-- Checks of types that were run have remarks. -/
theorem exists_hooked (hi : w₀.model.arena.get? id = some i)
    (hreports : ∀ type ∈ types, ∀ body,
      (w₀.model.types.definition? type).bind (·.check) = some body → (L.inspect body id).ReportsOn id)
    (hs : World.Steady pending w₀ w)
    (h : ((L.engine n).runChecks id types).outcome (w.beside log) = some (r, last)) :
    ∃ told w', (L.engine n).Hooked id types w told w' := by
  induction types generalizing w log with
  | nil => exact ⟨[], w, .nil⟩
  | cons type types ih =>
    have hmodel : (Action.model : Logged β σ (Model β)).outcome (w.beside log) =
        some (.ok w.model, w.beside log) := rfl
    have hrest := fun type hmem => hreports type (List.mem_cons_of_mem _ hmem)
    rw [runChecks, outcome_bind_ok hmodel] at h
    cases hcheck : (w.model.types.definition? type).bind (·.check) with
    | none =>
      rw [hcheck] at h
      obtain ⟨told, w', hhooked⟩ := ih hrest hs h
      exact ⟨told, w', .without hcheck hhooked⟩
    | some body =>
      rw [hcheck] at h
      have hbody : Inspection.ReportsOn id ((L.engine n).language.inspect body id) :=
        hreports type List.mem_cons_self body (by rw [← hs.unmoved.types, hcheck])
      dsimp only at h
      cases hrun : (Inspection.run ((L.engine n).language.inspect body id)).outcome
          (w.beside log) with
      | none =>
        rw [outcome_bind_none hrun] at h
        cases h
      | some out =>
        obtain ⟨told, w₁, htells⟩ := Inspection.exists_tells hw hi hbody hs L hrun
        rw [outcome_bind_ok (htells.outcome_run hw hi hs L)] at h
        obtain ⟨remarks, w', hhooked⟩ := ih hrest (htells.steady hs L) h
        exact ⟨_, w', .cons hcheck htells hhooked⟩

variable (hids : L.Checkable n w₀ ids)

omit hw in
include hids in
theorem Inspects.steady (h : (L.engine n).Inspects w₀ w visit w') (hnode : visit.node ∈ ids)
    (hs : World.Steady pending w₀ w) : World.Steady pending w₀ w' := by
  obtain ⟨hi, -, hjudging, hhooked⟩ := h
  exact hhooked.steady (hjudging.steady hi (hids.plain hnode hi) (hids.choices hnode) hs)

include hids

/-- **What one instance comes to**: everything that is remarked is added to the log. -/
theorem Inspects.outcome_checkAll (h : (L.engine n).Inspects w₀ w visit w')
    (hnode : visit.node ∈ ids) (hs : World.Steady pending w₀ w) {rest : List InstanceId} :
    ((L.engine n).checkAll (visit.node :: rest)).outcome (w.beside log) =
      ((L.engine n).checkAll rest).outcome
        (w'.beside (log.pushAll (visit.entries w₀.model.arena))) := by
  obtain ⟨hi, hkeys, hjudging, hhooked⟩ := h
  rename_i i w₁
  have hplain := hids.plain hnode hi
  have hs₁ := hjudging.steady hi hplain (hids.choices hnode) hs
  obtain ⟨j, hj, hproperties, -⟩ := hs.unmoved.declares hi
  obtain ⟨j₁, hj₁, -, htype⟩ := hs₁.unmoved.declares hi
  rw [checkAll, outcome_bind_ok (outcome_find (w := w.beside log) hj), hproperties, ← hkeys,
    outcome_bind_ok (hjudging.outcome_checkProperties hw hi hplain (hids.choices hnode) hs),
    outcome_bind_ok (outcome_typeOf (w := w₁.beside _) hj₁), outcome_bind_ok rfl, htype]
  show ((L.engine n).runChecks visit.node (w₁.model.types.lineage i.type) >>= fun _ =>
    (L.engine n).checkAll rest).outcome _ = _
  rw [hs₁.unmoved.types, outcome_bind_ok (hhooked.outcome_runChecks hw hi hs₁),
    ← ProblemLog.pushAll_append, ← List.map_append]
  rfl

/-- An instance that was looked at was checked. -/
theorem exists_inspects (hi : w₀.model.arena.get? id = some i) (hid : id ∈ ids)
    (hs : World.Steady pending w₀ w) {rest : List InstanceId}
    (h : ((L.engine n).checkAll (id :: rest)).outcome (w.beside log) = some (r, last)) :
    ∃ visit w', visit.node = id ∧ (L.engine n).Inspects w₀ w visit w' := by
  have hplain := hids.plain hid hi
  -- First the properties, then the checks of the types from the root downwards.
  have hdeclared : ∀ key ∈ i.properties.keys, ∃ d, i.properties.get? key = some d := by
    intro key hkey
    rw [PropertyTable.mem_keys, PropertyTable.contains_eq_isSome] at hkey
    exact Option.isSome_iff_exists.mp hkey
  obtain ⟨j, hj, hproperties, -⟩ := hs.unmoved.declares hi
  rw [checkAll, outcome_bind_ok (outcome_find (w := w.beside log) hj), hproperties] at h
  cases hfirst : ((L.engine n).checkProperties id i.properties.keys).outcome (w.beside log) with
  | none =>
    rw [outcome_bind_none hfirst] at h
    cases h
  | some out =>
    obtain ⟨judged, w₁, hkeys, hjudging⟩ := exists_judging hw hi hplain (hids.choices hid)
      hdeclared hs hfirst
    have hs₁ := hjudging.steady hi hplain (hids.choices hid) hs
    obtain ⟨j₁, hj₁, -, htype⟩ := hs₁.unmoved.declares hi
    rw [← hkeys, outcome_bind_ok (hjudging.outcome_checkProperties hw hi hplain
      (hids.choices hid) hs), outcome_bind_ok (outcome_typeOf (w := w₁.beside _) hj₁),
      outcome_bind_ok rfl, htype] at h
    replace h : ((L.engine n).runChecks id (w₁.model.types.lineage i.type) >>= fun _ =>
      (L.engine n).checkAll rest).outcome _ = _ := h
    rw [hs₁.unmoved.types] at h
    cases hhooks : ((L.engine n).runChecks id (w₀.model.types.lineage i.type)).outcome
        (w₁.beside (log.pushAll ((judged.filterMap Inspected.misfit).map
          (·.entry w₀.model.arena id)))) with
    | none =>
      rw [outcome_bind_none hhooks] at h
      cases h
    | some out' =>
      obtain ⟨told, w', hhooked⟩ :=
        exists_hooked hw hi (fun type hmem body => hids.reports hid hi hmem) hs₁ hhooks
      exact ⟨⟨id, judged, told⟩, w', rfl, .intro hi hkeys hjudging hhooked⟩

/-- **What several instances come to**: everything that is remarked is added to the log. -/
theorem Inspecting.outcome_checkAll (h : (L.engine n).Inspecting w₀ w visits w')
    (hvisits : ∀ visit ∈ visits, visit.node ∈ ids) (hs : World.Steady pending w₀ w) :
    ((L.engine n).checkAll (visits.map (·.node))).outcome (w.beside log) =
      some (.ok (), w'.beside (log.pushAll (visits.flatMap (·.entries w₀.model.arena)))) := by
  induction h generalizing log with
  | nil => rfl
  | cons hfirst _ ih =>
    obtain ⟨hnode, hrest⟩ := List.forall_mem_cons.mp hvisits
    rw [List.map_cons, hfirst.outcome_checkAll hw hids hnode hs,
      ih hrest (hfirst.steady hids hnode hs), List.flatMap_cons, ProblemLog.pushAll_append]

omit hw in
/-- Nothing has changed when instances have been checked. -/
theorem Inspecting.steady (h : (L.engine n).Inspecting w₀ w visits w')
    (hvisits : ∀ visit ∈ visits, visit.node ∈ ids) (hs : World.Steady pending w₀ w) :
    World.Steady pending w₀ w' := by
  induction h with
  | nil => exact hs
  | cons hfirst _ ih =>
    obtain ⟨hnode, hrest⟩ := List.forall_mem_cons.mp hvisits
    exact ih hrest (hfirst.steady hids hnode hs)

/-- Instances that were looked at were checked, one after the other. -/
theorem exists_inspecting {rest : List InstanceId} (hrest : ∀ y ∈ rest, y ∈ ids)
    (hthere : ∀ y ∈ rest, ∃ i, w₀.model.arena.get? y = some i) (hs : World.Steady pending w₀ w)
    (h : ((L.engine n).checkAll rest).outcome (w.beside log) = some (r, last)) :
    ∃ visits w', visits.map (·.node) = rest ∧ (L.engine n).Inspecting w₀ w visits w' := by
  induction rest generalizing w log with
  | nil => exact ⟨[], w, rfl, .nil⟩
  | cons y rest ih =>
    obtain ⟨hy, hlater⟩ := List.forall_mem_cons.mp hrest
    obtain ⟨⟨i, hi⟩, hlaterThere⟩ := List.forall_mem_cons.mp hthere
    obtain ⟨visit, w₁, rfl, hfirst⟩ := exists_inspects hw hids hi hy hs h
    rw [hfirst.outcome_checkAll hw hids hy hs] at h
    obtain ⟨visits, w', hvisits, hlater⟩ := ih hlater hlaterThere (hfirst.steady hids hy hs) h
    exact ⟨visit :: visits, w', congrArg (visit.node :: ·) hvisits, .cons hfirst hlater⟩

end

end Engine

end ProductModel
