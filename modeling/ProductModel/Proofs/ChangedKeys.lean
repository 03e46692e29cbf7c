import ProductModel.Proofs.Run.ChangeLists

/-!
# The keys of running changes

A property is set by a call that writes it, passes the change on, asks the type, and puts everything
back if the change is refused.  Meanwhile other calls may set properties, of the same instance or of
others, and end in any way.  `Body.changed_keys_listed` says what the model tells of all this, at
every moment at which a program can ask for it.

* While a call is the innermost one and has come to writing, the list of changed keys holds the keys
  that it has written itself, in the order of their first writes; the key that it sets comes first.
* When the outermost call has ended, the list is the final one of that call, or empty if the call
  did not come to writing.
* However a call ends, the lists of the calls around it are what they were.

All this depends on getters and on methods that compute choices: they may do anything but write
properties.  And a key counts as written only if there is an instance to write it to
(`Workshop.passed_keys_not_listed`).
-/

namespace ProductModel

open ProductModel.Action
open PropertyWrite (written)

variable {β σ α : Type}

/-! ## Operations -/

namespace World

/-- **What a stretch of a run does to the record and the notes**, of worlds. -/
def Booked (w w' : World β (σ × ChangeWatch)) : Prop :=
  w.host.2.Leads w.model.changes w'.host.2 w'.model.changes

/-- The world in which a write is noted, and recorded if there is an instance to write to. -/
def writing (w : World β (σ × ChangeWatch)) (x : PropertyWrite) : World β (σ × ChangeWatch) :=
  { w with
    model := { w.model with changes := ChangeWatch.taking w.model.changes x }
    host := (w.host.1, w.host.2.write x) }

theorem booked_writing (w : World β (σ × ChangeWatch)) (x : PropertyWrite) :
    w.Booked (w.writing x) := ChangeWatch.leads_write _ _ x

/-- What a change does once it has started, of worlds. -/
def Carried (w : World β (σ × ChangeWatch)) (key : Symbol) (w' : World β (σ × ChangeWatch)) :
    Prop :=
  ChangeWatch.Carried key w.host.2 w.model.changes w'.host.2 w'.model.changes

/-- What is left to a change to do once it has begun, of worlds. -/
def Closes (w : World β (σ × ChangeWatch)) (key : Symbol) (w' : World β (σ × ChangeWatch)) :
    Prop :=
  ChangeWatch.Closes key w.host.2 w.model.changes w'.host.2 w'.model.changes

theorem aloof_booked :
    Aloof (Booked : World β (σ × ChangeWatch) → World β (σ × ChangeWatch) → Prop) where
  same {w w'} _ hchanges hhost := by
    unfold Booked
    rw [hchanges, hhost]
    exact .refl _ _
  trans h h' := ChangeWatch.Leads.trans h h'

theorem neutral_booked :
    Neutral (Booked : World β (σ × ChangeWatch) → World β (σ × ChangeWatch) → Prop) :=
  aloof_booked.neutral

theorem observant_booked : Observant ChangeWatch.noting
    (Booked : World β (σ × ChangeWatch) → World β (σ × ChangeWatch) → Prop) where
  toNeutral := neutral_booked
  own w _ := ChangeWatch.Leads.refl w.host.2 w.model.changes
  chronicling w := ChangeWatch.leads_see w.host.2 w.model.changes

end World

open World (Booked aloof_booked neutral_booked)

namespace Engine.Considerate

variable {e : Engine β (σ × ChangeWatch)} (h : e.Considerate Booked)
include h

/-- **A write is recorded before anything is done about it**, unless there is no instance. -/
theorem always_writeNoted (id : InstanceId) (key : Symbol) (v : Value)
    (w : World β (σ × ChangeWatch)) :
    (e.writeNoted id key v).Always w (fun _ => (w.writing ⟨key, true⟩).Booked)
      (fun _ w' => (w.writing ⟨key, true⟩).Booked w' ∨
        w.model.arena.get? id = none ∧ w' = w.writing ⟨key, false⟩) := by
  have hN := neutral_booked (β := β) (σ := σ)
  have hstore : ∀ type, Respects Booked (do
      e.storeProperty id key v (← Action.findMethod type (Accessor.setter key))) := by
    intro type
    refine hN.bind (hN.findMethod _ _) fun found => ?_
    unfold Engine.storeProperty
    split
    · exact hN.bind (h.invoke hN _ _ _) fun _ => hN.pure _
    · exact hN.update (aloof_booked.allows _)
  unfold Engine.writeNoted Engine.writeProperty Action.note Action.modifyChanges
  rw [always_bind, always_modify]
  dsimp only
  rw [always_bind, always_typeOf]
  refine ⟨fun i hi => ?_, fun habsent => .inr ⟨habsent, ?_⟩⟩
  · have hthere : w.model.arena.contains id = true := Arena.contains_eq_true_iff.mpr ⟨i, hi⟩
    rw [hthere, always_bind, always_modifyModel]
    exact ((hstore i.type).always (w.writing ⟨key, true⟩)).mono (fun _ _ hr => hr)
      fun _ _ hr => .inl hr
  · have hthere : w.model.arena.contains id = false := by
      rw [Bool.eq_false_iff]
      intro hthere
      obtain ⟨i, hi⟩ := Arena.contains_eq_true_iff.mp hthere
      rw [show w.model.arena.get? id = none from habsent] at hi
      cases hi
    rw [hthere]
    rfl

theorem writeNoted (id : InstanceId) (key : Symbol) (v : Value) :
    Respects Booked (e.writeNoted id key v) := by
  constructor
  intro w
  refine (h.always_writeNoted id key v w).mono (fun _ _ hr => (w.booked_writing _).trans hr) ?_
  rintro _ w' (hr | ⟨-, rfl⟩)
  · exact (w.booked_writing _).trans hr
  · exact w.booked_writing _

theorem restoreValuesNoted (id : InstanceId) (values : List (Symbol × Value)) :
    Respects Booked (e.restoreValuesNoted id values) := by
  have hN := neutral_booked (β := β) (σ := σ)
  induction values with
  | nil => exact hN.pure _
  | cons entry rest ih =>
    obtain ⟨key, v⟩ := entry
    unfold Engine.restoreValuesNoted
    refine hN.bind (h.getProperty hN id key) fun now => ?_
    dsimp only
    split
    · exact hN.bind (h.writeNoted id key v) fun _ => ih
    · exact ih

theorem settleNoted (id : InstanceId) (before : PropertyCapture)
    (accepted : Except ModelError Bool) :
    Respects Booked (e.settleNoted id before accepted) := by
  have hN := neutral_booked (β := β) (σ := σ)
  have hmark : Allows Booked id fun i : Instance β => { i with changed := true } :=
    (aloof_booked (σ := σ)).allows _
  have hcompare := h.compare hN hmark before
  have hrestore : Respects Booked (e.restoreNoted id before) :=
    hN.bind (hN.update (aloof_booked.allows _)) fun _ => h.restoreValuesNoted id _
  have hroll : Respects Booked (e.rollBackNoted id before accepted) := by
    unfold Engine.rollBackNoted
    refine hN.bind (hN.bind hN.model fun _ => hN.pure _) fun keys => hN.bind hrestore fun _ => ?_
    exact hN.bind (h.propsChanged hN id keys false).attempt fun _ =>
      hN.bind (hN.ofExcept _) fun _ => hN.bind (hN.ofExcept _) fun _ => hN.pure _
  unfold Engine.settleNoted
  split
  · exact hcompare
  · exact hN.bind hroll fun _ => hcompare

theorem propagateAndAsk (id : InstanceId) (key : Symbol) :
    Respects Booked (e.propagateAndAsk id key) := by
  have hN := neutral_booked (β := β) (σ := σ)
  exact hN.bind (h.propagate hN id key) fun _ =>
    hN.bind (hN.bind hN.model fun _ => hN.pure _) fun keys => h.propsChanged hN id keys true

end Engine.Considerate

/-- Without an instance nothing is put back. -/
theorem Engine.always_settleNoted_of_absent (e : Engine β (σ × ChangeWatch)) {id : InstanceId}
    {w : World β (σ × ChangeWatch)} (habsent : w.model.arena.get? id = none)
    (before : PropertyCapture) (err : ModelError) :
    (e.settleNoted id before (.error err)).Always w (fun _ _ => False) (fun _ w' => w' = w) := by
  unfold Engine.settleNoted Engine.rollBackNoted Engine.restoreNoted Action.currentKeys
  rw [always_bind, always_bind, always_bind, always_model, always_pure, always_bind, always_bind,
    always_update]
  refine ⟨fun i hi => ?_, fun _ => rfl⟩
  rw [habsent] at hi
  cases hi

namespace Engine.Considerate

variable {e : Engine β (σ × ChangeWatch)} (h : e.Considerate Booked)
include h

/-- **A change that has started.** -/
theorem always_applyChangeNoted (id : InstanceId) (key : Symbol) (v : Value)
    (before : PropertyCapture) (w : World β (σ × ChangeWatch)) :
    (e.applyChangeNoted id key v before).Always w
      (fun _ => w.Carried key) (fun _ => w.Carried key) := by
  have hN := neutral_booked (β := β) (σ := σ)
  have hrest : ∀ accepted {w'}, (w.writing ⟨key, true⟩).Booked w' →
      (e.settleNoted id before accepted).Always w' (fun _ => w.Carried key)
        fun _ => w.Carried key :=
    fun accepted w' hr => ((h.settleNoted id before accepted).always_after hN hr).mono
      (fun _ _ => .written) fun _ _ => .written
  unfold Engine.applyChangeNoted
  rw [always_bind, always_attempt, always_bind]
  refine (h.always_writeNoted id key v w).mono (fun _ w₁ hr => ?_) ?_
  · exact ((h.propagateAndAsk id key).always_after hN hr).mono (fun _ _ => hrest _)
      fun _ _ => hrest _
  · rintro err w₁ (hr | ⟨habsent, rfl⟩)
    · exact hrest _ hr
    · refine (e.always_settleNoted_of_absent (w := w.writing ⟨key, false⟩) habsent before err).mono
        (fun _ _ hr => hr.elim) ?_
      rintro _ _ rfl
      exact .refused

theorem always_changeNoted (id : InstanceId) (key : Symbol) (v : Value)
    (w : World β (σ × ChangeWatch)) :
    (e.changeNoted id key v).Always w (fun _ => w.Closes key) (fun _ => w.Closes key) := by
  have hN := neutral_booked (β := β) (σ := σ)
  unfold Engine.changeNoted Action.note Action.modifyChanges
  rw [always_bind]
  refine ((h.capture hN id).always w).mono (fun before w₁ hr => ?_) fun _ _ => .unstarted
  rw [always_bind, always_modifyModel, always_bind, always_modify, always_bind, always_attempt]
  refine (h.always_applyChangeNoted id key v before _).mono (fun _ w₂ hcarried => ?_)
    fun _ w₂ hcarried => ?_
  all_goals
    rw [always_bind, always_modifyModel, always_ofExcept]
    exact ⟨fun _ _ => .carried hr hcarried, fun _ _ => .carried hr hcarried⟩

/-- **Setting a property** keeps the record faithful. -/
theorem setPropertyNoted (id : InstanceId) (key : Symbol) (v : Value) :
    Respects Booked (e.setPropertyNoted id key v) := by
  have hN := neutral_booked (β := β) (σ := σ)
  have hdeclared : ∀ (d : Option PropertyDef) w, (e.setDeclaredNoted id key v d).Always w
      (fun _ => w.Closes key) (fun _ => w.Closes key) := by
    intro d w
    have hsame : w.Closes key w := .unstarted (.refl _ _)
    unfold Engine.setDeclaredNoted
    split
    · exact (always_pure _).mpr hsame
    · rename_i d
      dsimp only
      split
      · rw [always_bind, always_throw]
        exact hsame
      · rw [always_bind, always_config]
        split
        · rw [always_bind]
          exact ((h.checkValue hN id d v).always w).mono (fun _ w₁ hr =>
            (h.always_changeNoted id key v w₁).mono (fun _ _ => hr.closes) fun _ _ => hr.closes)
            fun _ _ => .unstarted
        · exact h.always_changeNoted id key v w
  constructor
  intro w
  unfold Engine.setPropertyNoted Action.note Action.modifyChanges
  rw [always_bind, always_model]
  dsimp only
  rw [always_bind, always_modify, always_bind, always_attempt, always_bind, always_modifyModel,
    always_bind]
  have hend : ∀ (r : Except ModelError Bool) (w' : World β (σ × ChangeWatch)),
      ChangeWatch.Closes key (w.host.2.begin key) w.model.changes.clearLast w'.host.2
        w'.model.changes →
      (do
        modify fun u : World β (σ × ChangeWatch) =>
          { u with host := (u.host.1, u.host.2.finish w.model.changes u.model.changes) }
        Action.ofExcept r : Action β (σ × ChangeWatch) Bool).Always w'
        (fun _ => Booked w) fun _ => Booked w := by
    intro r w' hcloses
    rw [always_bind, always_modify, always_ofExcept]
    exact ⟨fun _ _ => hcloses.leads, fun _ _ => hcloses.leads⟩
  rw [always_find]
  refine ⟨fun i _ => ?_, fun _ => hend _ _ (.unstarted (.refl _ _))⟩
  exact (hdeclared _ _).mono (fun _ _ => hend _ _) fun _ _ => hend _ _

/-- **Every operation keeps the record faithful**, if the bodies do that it runs. -/
theorem stepNoted (op : Op β) : Respects Booked (e.stepNoted op) := by
  have hN := neutral_booked (β := β) (σ := σ)
  have htypes : ∀ (w : World β (σ × ChangeWatch)) types,
      Booked w { w with model := { w.model with types } } := fun w _ => .refl w.host.2 _
  have hallows : ∀ x (f : Instance β → Instance β), Allows Booked x f :=
    fun _ f => (aloof_booked (σ := σ)).allows f
  cases hop : op.isRecorded with
  | false =>
    rw [e.stepNoted_of_not_isRecorded hop]
    cases op with
    | register d => exact hN.changeTypes htypes (·.register d)
    | redefine typeName d => exact hN.changeTypes htypes (·.redefine typeName d)
    | sweep kind root =>
      exact h.sweep hN (fun x => hallows x _) (fun x => hallows x _) (fun x _ => hallows x _) kind
        root
    | _ => exact h.step_of_isOrdinary aloof_booked.permissive rfl hop
  | true =>
    cases op with
    | writeProperty id key v => exact h.writeNoted id key v
    | setProperty id key v => exact h.setPropertyNoted id key v
    | _ => cases hop

end Engine.Considerate

/-- **Operations keep the record faithful**, however deep their bodies are nested. -/
theorem booked_performNoted (L : Language β σ) (allowance : Nat) (op : Op β) :
    Respects Booked (performNoted L allowance op) := by
  induction allowance generalizing op with
  | zero => exact ⟨fun _ => always_exhausted⟩
  | succ allowance ih => exact (World.observant_booked.considerate ih).stepNoted op

theorem ChangeWatch.faithful_empty : ChangeWatch.Faithful {} {} where
  running := rfl
  first _ ha := absurd ha List.not_mem_nil
  idle _ := rfl
  waiting _ _ := rfl
  sights _ hs := absurd hs List.not_mem_nil
  ended _ hx := absurd hx List.not_mem_nil

/-- **The keys of running changes**, in every run from nothing, as long as no property is written
while a change at work has not come to writing.  Every program sees the lists that they should be,
and every change that ends leaves them so, in whatever way it does. -/
theorem Body.changed_keys_listed (p : Body β σ α) (L : Language β σ) (allowance : Nat)
    (config : Config) (host : σ) {r : Except ModelError α} {w : World β (σ × ChangeWatch)}
    (hr : p.notedRun L allowance config host = some (r, w)) (hstrayed : w.host.2.strayed = false) :
    (Body.exec L allowance p).outcome { config, host } = some (r, w.project Prod.fst) ∧
      (∀ s ∈ w.host.2.sights, s.Lists written) ∧ ∀ x ∈ w.host.2.ended, x.Kept written := by
  have hbooked := (World.observant_booked.run (booked_performNoted L allowance) p).of_outcome hr
  have hfaithful := hbooked.faithful hstrayed ChangeWatch.faithful_empty
  refine ⟨?_, hfaithful.sights, hfaithful.ended⟩
  rw [p.outcome_notedRun, hr]
  rfl

/-! ## Panels -/

namespace Workshop

/-- What a body does with a property. -/
inductive Deed where
  | write (id : InstanceId) (key : Symbol)
  | set (id : InstanceId) (key : Symbol)

/-- Does one thing after the other, whatever comes of it. -/
def carryOut : List Deed → Body (List Deed) Unit Unit
  | [] => .pure ()
  | .write id key :: rest => .perform (.writeProperty id key (.int 1)) fun _ => carryOut rest
  | .set id key :: rest => .perform (.setProperty id key (.int 1)) fun _ => carryOut rest

/-- A language of such bodies. -/
def language : Language (List Deed) Unit where
  method deeds _ := (carryOut deeds).bind fun _ => .pure .void
  rule _ _ := .pure .accept
  evaluate deeds _ _ := carryOut deeds
  inspect _ _ := .pure ()
  transformed _ _ _ host := host

def panel : InstanceId := ⟨0, 0⟩

def shelf : InstanceId := ⟨1, 0⟩

/-- Makes a panel and a shelf, both with a width. -/
def build : Body (List Deed) Unit Unit := do
  let width : PropertyDef := { key := ⟨"width"⟩, name := "Width", kind := .int }
  let _ ← Program.call (Op.register { name := "Panel" })
  let panel ← Program.call (Op.instantiate "Panel" none "panel" [])
  let shelf ← Program.call (Op.instantiate "Panel" none "shelf" [])
  let _ ← Program.call (Op.setupProperty panel width)
  let _ ← Program.call (Op.setupProperty shelf width)

/-- Sets the width of the panel, when product data do something about it. -/
def widen (deeds : List Deed) : Body (List Deed) Unit Unit := do
  Program.call (Op.setProductData panel { evaluate := some deeds })
  let _ ← Program.call (Op.setProperty panel ⟨"width"⟩ (.int 1))

/-- The panel passes its width on to the shelf, and a property that the shelf does not have. -/
def nested : Body (List Deed) Unit Unit := do
  build
  widen [.write panel ⟨"depth"⟩, .set shelf ⟨"width"⟩, .set shelf ⟨"ghost"⟩]

/-- The panel writes a property of the shelf, which is gone. -/
def forsaken : Body (List Deed) Unit Unit := do
  build
  let _ ← Program.call (Op.remove shelf)
  widen [.write shelf ⟨"depth"⟩]

/-- Setting the width of the panel is one change, with two others inside, one of them refused. -/
theorem changed_keys_listed_panels : ∃ r w, nested.notedRun language 2 {} () = some (r, w) ∧
    w.host.2.strayed = false ∧
    (Body.exec language 2 nested).outcome { config := {}, host := () } =
      some (r, w.project Prod.fst) ∧
    (∃ s ∈ w.host.2.sights, s.work = [] ∧ s.changes.current = [⟨"width"⟩, ⟨"depth"⟩]) ∧
    w.host.2.ended.map (fun x => (x.change.key, x.outer.length)) =
      [(⟨"width"⟩, 1), (⟨"ghost"⟩, 1), (⟨"width"⟩, 0)] ∧
    (∀ s ∈ w.host.2.sights, s.Lists written) ∧ ∀ x ∈ w.host.2.ended, x.Kept written := by
  have hrun : (nested.notedRun language 2 {} ()).any (fun run =>
      !run.2.host.2.strayed &&
      run.2.host.2.sights.any (fun s =>
        s.work.isEmpty && decide (s.changes.current = [⟨"width"⟩, ⟨"depth"⟩])) &&
      decide (run.2.host.2.ended.map (fun x => (x.change.key, x.outer.length)) =
        [(⟨"width"⟩, 1), (⟨"ghost"⟩, 1), (⟨"width"⟩, 0)])) = true := by
    decide +kernel
  simp only [Option.any_eq_true, Bool.and_eq_true, Bool.not_eq_true', decide_eq_true_eq,
    List.any_eq_true, List.isEmpty_iff, Prod.exists] at hrun
  obtain ⟨r, w, hr, ⟨hstrayed, hsight⟩, hended⟩ := hrun
  obtain ⟨hexec, hlists, hkept⟩ := Body.changed_keys_listed nested language 2 {} () hr hstrayed
  exact ⟨r, w, hr, hstrayed, hexec, hsight, hended, hlists, hkept⟩

/-- **Keys that are passed to a write are not always listed**: a write is refused when there is no
instance to write to, before anything is recorded. -/
theorem passed_keys_not_listed : ∃ r w, forsaken.notedRun language 2 {} () = some (r, w) ∧
    w.host.2.strayed = false ∧ ∃ s ∈ w.host.2.sights, s.work = [] ∧
      s.changes.current = [⟨"width"⟩] ∧ PropertyWrite.passed s.last = [⟨"width"⟩, ⟨"depth"⟩] ∧
      ¬ s.Lists PropertyWrite.passed := by
  have hrun : (forsaken.notedRun language 2 {} ()).any (fun run =>
      !run.2.host.2.strayed &&
      run.2.host.2.sights.any (fun s => s.work.isEmpty &&
        decide (s.changes.current = [⟨"width"⟩]) &&
        decide (PropertyWrite.passed s.last = [⟨"width"⟩, ⟨"depth"⟩]))) = true := by
    decide +kernel
  simp only [Option.any_eq_true, Bool.and_eq_true, Bool.not_eq_true', decide_eq_true_eq,
    List.any_eq_true, List.isEmpty_iff, Prod.exists] at hrun
  obtain ⟨r, w, hr, hstrayed, s, hs, ⟨hwork, hcurrent⟩, hpassed⟩ := hrun
  refine ⟨r, w, hr, hstrayed, s, hs, hwork, hcurrent, hpassed, fun hlists => ?_⟩
  have hsame := hlists.idle hwork
  rw [hcurrent, hpassed] at hsame
  cases hsame

end Workshop

end ProductModel
