import ProductModel.Engine.PropertyChange
import ProductModel.Proofs.Run.Calls

/-!
# Property changes follow the rules

Declaring and removing properties is refused on a busy instance.  Putting a captured table back is
not refused, and need not be: on a busy instance the table cannot have changed in more than the
states of its properties since it was captured (`Fits`).
-/

namespace ProductModel

open ProductModel.Action

variable {β τ : Type} {seen : τ → Watch β} {pending : List Pending} {w w' : World β τ}
  {id : InstanceId}

/-! ## Tables -/

namespace PropertyTable

/-- Changing a state does not change the layout. -/
theorem layout_setState (t : PropertyTable) (key : Symbol) (state : PropertyState) :
    (t.setState key state).layout = t.layout := by
  unfold setState modify layout
  rw [List.map_map]
  congr 1
  refine List.map_congr_left ?_
  intro entry _
  rw [Function.comp_apply]
  split <;> rfl

end PropertyTable

theorem follows_setupProperty (id : InstanceId) (d : PropertyDef) :
    Follows seen (setupProperty id d : Action β τ Bool) := by
  constructor
  intro pending w hw
  unfold setupProperty
  refine .ensureNotBusy_bind hw fun hidle => .find_bind hw fun i _ => ?_
  have hset : Leads seen pending (update id fun j =>
      { j with properties := (i.properties.setup d).2 } : Action β τ Unit) w fun _ _ => True :=
    .arrange hw hidle (fun _ => rfl) (fun _ => rfl) fun _ _ => True.intro
  exact hset.bind fun _ _ hr _ => .pure hr.reachable True.intro

theorem follows_removeProperty (id : InstanceId) (key : Symbol) :
    Follows seen (removeProperty id key : Action β τ Bool) := by
  constructor
  intro pending w hw
  unfold removeProperty
  refine .ensureNotBusy_bind hw fun hidle => .find_bind hw fun i _ => ?_
  have hset : Leads seen pending (update id fun j =>
      { j with properties := (i.properties.remove key).2, dynamic := j.dynamic.erase key } :
        Action β τ Unit) w fun _ _ => True :=
    .arrange hw hidle (fun _ => rfl) (fun _ => rfl) fun _ _ => True.intro
  dsimp only
  split
  · exact hset.bind fun _ _ hr _ => .pure hr.reachable True.intro
  · exact .pure hw True.intro

theorem follows_declaredProperty (id : InstanceId) (key : Symbol) :
    Follows seen (declaredProperty id key : Action β τ PropertyDef) := by
  unfold declaredProperty
  refine (Follows.find id).bind fun i => ?_
  split
  · exact .pure _
  · exact .describe_throw _ _

theorem follows_setPropertyState (id : InstanceId) (key : Symbol) (state : PropertyState) :
    Follows seen (setPropertyState id key state : Action β τ Unit) := by
  have hset : Follows seen (update id fun i =>
      { i with properties := i.properties.setState key state } : Action β τ Unit) := by
    refine .amend (fun i => ?_) (fun _ => rfl) fun _ => rfl
    unfold Instance.standing
    rw [PropertyTable.layout_setState]
  unfold setPropertyState
  refine (Follows.describe id).bind fun name => (Follows.find id).bind fun i => ?_
  dsimp only
  split
  · exact ⟨fun hw => .throw_bind hw⟩
  · exact hset

theorem follows_propertyState (id : InstanceId) (key : Symbol) :
    Follows seen (propertyState id key : Action β τ PropertyState) := by
  unfold propertyState
  exact (follows_declaredProperty id key).bind fun _ => .pure _

theorem follows_modifyChanges {f : ChangeHistory → ChangeHistory}
    (hf : ∀ c : ChangeHistory, c.Extends (f c)) :
    Follows seen (modifyChanges f : Action β τ Unit) :=
  .modifyModel (fun _ => rfl) (fun _ => rfl) fun m => hf m.changes

theorem follows_currentKeys : Follows seen (currentKeys : Action β τ (List Symbol)) := by
  unfold currentKeys
  exact Follows.model.bind fun _ => .pure _

/-! ## What was captured -/

/-- **A captured table fits** an instance that is busy: it has its layout. -/
def Fits (m : Model β) (id : InstanceId) (before : PropertyCapture) : Prop :=
  m.busyOf id ≠ 0 → ∀ i, m.arena.get? id = some i → before.table.layout = i.properties.layout

/-- What fits keeps fitting as long as the same chains are under way. -/
theorem Fits.later {m m' : Model β} {before : PropertyCapture} (hfits : Fits m id before)
    (h : Sound pending m) (h' : Sound pending m') : Fits m' id before := by
  intro hbusy j hj
  have hbusy' : m.busyOf id ≠ 0 := by
    rw [h.busy, ← h'.busy]
    exact hbusy
  obtain ⟨i, hi⟩ := Model.present_of_busy hbusy'
  obtain ⟨j', hj', hstanding⟩ := h.standing_of_busy h' hbusy' hi
  rw [hj] at hj'
  cases hj'
  exact (hfits hbusy' i hi).trans (Instance.standing_eq hstanding).2.2.2.2.2.symm

/-! ## A change from its start to its end -/

/-- The world in which a change of a property has started. -/
def World.starting (w : World β τ) : World β τ :=
  { w with model := { w.model with changes := w.model.changes.start } }

/-- The world in which a change of a property has ended. -/
def World.finishing (w : World β τ) : World β τ :=
  { w with model := { w.model with changes := w.model.changes.finish } }

/-- **A stretch of a run inside a change** is one of the run around it. -/
theorem Reached.of_change (h : Reached seen pending w.starting w') :
    Reached seen pending w w'.finishing := by
  have hend : Edit w'.model w'.finishing.model :=
    .retouch (.of_arena rfl fun _ hy => Or.inl hy)
  exact ⟨h.reachable.edit hend, ⟨h.aged.lastOrder, h.aged.origin⟩, ⟨h.spared.lasts⟩,
    h.changes.finish, h.work, h.noted⟩

/-! ## Setting a property in parts -/

namespace Engine

variable (e : Engine β τ)

/-- The check of a value before it is set, unless checks are turned off. -/
def validate (id : InstanceId) (d : PropertyDef) (v : Value) : Action β τ Unit := do
  if (← Action.config).validateProperties then e.checkValue id d v

/-- The comparison with the properties from before, after a change. -/
def compare (id : InstanceId) (before : PropertyCapture) : Action β τ Bool := do
  let after ← e.capture id
  let differs := !PropertyCapture.sameValues after.values before.values
  if differs then
    Action.update id fun i => { i with changed := true }
  return differs || !(after.table == before.table)

/-- What is left of setting a property after the value was found to be valid. -/
def changeValidated (id : InstanceId) (key : Symbol) (v : Value) : Action β τ Bool := do
  let before ← e.capture id
  Action.modifyChanges (·.start)
  let result ← Action.attempt (e.applyChange id key v before)
  Action.modifyChanges (·.finish)
  Action.ofExcept result

end Engine

namespace Engine.Lawful

variable {e : Engine β τ} (h : e.Lawful seen)
include h

/-! ## Values -/

theorem getProperty (id : InstanceId) (key : Symbol) : Follows seen (e.getProperty id key) := by
  unfold Engine.getProperty
  refine (Follows.find id).bind fun i => ?_
  split
  · exact .pure _
  · refine (Follows.findMethod _ _).bind fun found => ?_
    split
    · exact h.invoke _ _ _
    · exact (Follows.find id).bind fun _ => .pure _

theorem storeProperty (id : InstanceId) (key : Symbol) (v : Value) (found : FoundMethod β) :
    Follows seen (e.storeProperty id key v found) := by
  cases found with
  | none => exact .amend (fun _ => rfl) (fun _ => rfl) fun _ => rfl
  | some entry => exact (h.invoke _ _ _).bind fun _ => .pure _

theorem writeProperty (id : InstanceId) (key : Symbol) (v : Value) :
    Follows seen (e.writeProperty id key v) := by
  unfold Engine.writeProperty
  refine (Follows.typeOf id).bind fun type => ?_
  refine (follows_modifyChanges fun c => c.extends_record key).bind fun _ => ?_
  exact (Follows.findMethod _ _).bind fun found => h.storeProperty id key v found

theorem choices (id : InstanceId) (key : Symbol) : Follows seen (e.choices id key) := by
  unfold Engine.choices
  refine (follows_declaredProperty id key).bind fun d => ?_
  split
  · exact .pure _
  · refine (h.call _ _ _).bind fun v => ?_
    split <;> exact .pure _
  · exact .pure _

theorem refusal (id : InstanceId) (d : PropertyDef) (v : Value) :
    Follows seen (e.refusal id d v) := by
  unfold Engine.refusal
  split
  · exact .pure _
  · split
    · exact .pure _
    · exact (h.choices _ _).bind fun _ => .pure _

theorem checkValue (id : InstanceId) (d : PropertyDef) (v : Value) :
    Follows seen (e.checkValue id d v) := by
  unfold Engine.checkValue
  refine (h.refusal id d v).bind fun r => ?_
  split
  · exact .throw _
  · exact .pure _

theorem propsChanged (id : InstanceId) (keys : List Symbol) (asking : Bool) :
    Follows seen (e.propsChanged id keys asking) := by
  unfold Engine.propsChanged
  refine (Follows.typeOf id).bind fun type => (Follows.findMethod _ _).bind fun found => ?_
  split
  · exact .pure _
  · exact (h.invoke _ _ _).bind fun _ => .pure _

theorem getProperties (id : InstanceId) (keys : List Symbol) :
    Follows seen (e.getProperties id keys) := by
  induction keys with
  | nil => exact .pure _
  | cons key keys ih =>
    unfold Engine.getProperties
    exact (h.getProperty id key).bind fun _ => ih.bind fun _ => .pure _

/-! ## Changes -/

/-- **What is captured fits.** -/
theorem capture_leads (hw : Reachable pending w.model) :
    Leads seen pending (e.capture id) w fun before w' => Fits w'.model id before := by
  unfold Engine.capture
  refine .find_bind hw fun i hi => ?_
  dsimp only
  refine ((h.getProperties id _).leads hw).bind fun values w' hreach _ => ?_
  refine .pure hreach.reachable ?_
  have hfits : Fits w.model id ⟨i.properties, values⟩ := by
    intro _ j hj
    rw [hi] at hj
    cases hj
    rfl
  exact hfits.later hw.sound hreach.sound

theorem restoreValues (id : InstanceId) (values : List (Symbol × Value)) :
    Follows seen (e.restoreValues id values) := by
  induction values with
  | nil => exact .pure _
  | cons entry rest ih =>
    obtain ⟨key, v⟩ := entry
    unfold Engine.restoreValues
    refine (h.getProperty id key).bind fun now => ?_
    dsimp only
    split
    · exact (h.writeProperty id key v).bind fun _ => ih
    · exact ih

/-- **Putting a table back that fits.** -/
theorem restore_leads {before : PropertyCapture} (hw : Reachable pending w.model)
    (hfits : Fits w.model id before) :
    Leads seen pending (e.restore id before) w fun _ _ => True := by
  unfold Engine.restore
  refine Leads.bind (P := fun _ _ => True) (.update hw ?_ fun _ _ => True.intro)
    fun _ _ hr _ => (h.restoreValues id _).leads hr.reachable
  -- An idle instance may get any table, and the one of a busy instance has the same layout.
  intro _ _
  refine .modify _ id (fun _ => rfl) (fun _ => rfl) ?_
  intro hbusy i hi
  unfold Instance.standing
  rw [hfits hbusy i hi]

theorem propagate (id : InstanceId) (key : Symbol) : Follows seen (e.propagate id key) := by
  unfold Engine.propagate
  refine (Follows.ask _).bind fun data => ?_
  split
  · exact .pure _
  · split
    · exact .pure _
    · exact h.evaluate _ _ _

theorem writeAndAsk (id : InstanceId) (key : Symbol) (v : Value) :
    Follows seen (e.writeAndAsk id key v) := by
  unfold Engine.writeAndAsk
  refine (h.writeProperty id key v).bind fun _ => (h.propagate id key).bind fun _ => ?_
  exact follows_currentKeys.bind fun _ => h.propsChanged _ _ _

theorem rollBack_leads {before : PropertyCapture} (accepted : Except ModelError Bool)
    (hw : Reachable pending w.model) (hfits : Fits w.model id before) :
    Leads seen pending (e.rollBack id before accepted) w fun _ _ => True := by
  unfold Engine.rollBack
  refine (follows_currentKeys.leads hw).bind fun keys w₁ hreach₁ _ => ?_
  have hfits₁ := hfits.later hw.sound hreach₁.sound
  refine (h.restore_leads hreach₁.reachable hfits₁).bind fun _ w₂ hreach₂ _ => ?_
  have hnotice : Follows seen (do
      let noticed ← attempt (e.propsChanged id keys false)
      let _ ← Action.ofExcept accepted
      let _ ← Action.ofExcept noticed) :=
    (h.propsChanged id keys false).attempt.bind fun noticed =>
      (Follows.ofExcept accepted).bind fun _ => (Follows.ofExcept noticed).bind fun _ => .pure _
  exact hnotice.leads hreach₂.reachable

theorem compare (id : InstanceId) (before : PropertyCapture) :
    Follows seen (e.compare id before) := by
  have hmark : Follows seen (update id fun i => { i with changed := true } : Action β τ Unit) :=
    .amend (fun _ => rfl) (fun _ => rfl) fun _ => rfl
  unfold Engine.compare
  refine Follows.bind ⟨fun hw => (h.capture_leads hw).trivial⟩ fun after => ?_
  dsimp only
  split
  · exact hmark.bind fun _ => .pure _
  · exact .pure _

theorem applyChange_leads {before : PropertyCapture} (key : Symbol) (v : Value)
    (hw : Reachable pending w.model) (hfits : Fits w.model id before) :
    Leads seen pending (e.applyChange id key v before) w fun _ _ => True := by
  unfold Engine.applyChange
  refine ((h.writeAndAsk id key v).attempt.leads hw).bind fun accepted w₁ hreach₁ _ => ?_
  have hfits₁ := hfits.later hw.sound hreach₁.sound
  dsimp only
  split
  · exact (h.compare id before).leads hreach₁.reachable
  · exact (h.rollBack_leads accepted hreach₁.reachable hfits₁).bind fun _ _ hr _ =>
      (h.compare id before).leads hr.reachable

/-- **A change from its start to its end.** -/
theorem changeValidated (id : InstanceId) (key : Symbol) (v : Value) :
    Follows seen (e.changeValidated id key v) := by
  constructor
  intro pending w hw
  unfold Engine.changeValidated
  refine (h.capture_leads hw).bind fun before w₁ hreach₁ hfits => ?_
  have hstart : Reachable pending w₁.starting.model :=
    hreach₁.reachable.edit (.retouch (.of_arena rfl fun _ hy => Or.inl hy))
  -- However the change went, it is taken off the stack before its result is given.
  have hend : ∀ (result : Except ModelError Bool) (w₂ : World β τ),
      Reached seen pending w₁.starting w₂ →
      (do modifyChanges (·.finish)
          Action.ofExcept result : Action β τ Bool).Always w₂
        (fun _ w' => Reached seen pending w₁ w' ∧ True)
        (fun _ w' => Reached seen pending w₁ w') := by
    intro result w₂ hreach₂
    have hall := hreach₂.of_change
    unfold modifyChanges
    rw [always_bind, always_modifyModel, always_ofExcept]
    exact ⟨fun _ _ => ⟨hall, True.intro⟩, fun _ _ => hall⟩
  unfold modifyChanges
  refine (always_bind _ _).mpr ((always_modifyModel _).mpr ?_)
  refine (always_bind _ _).mpr ((always_attempt _).mpr ?_)
  refine Always.mono (h.applyChange_leads key v hstart hfits) ?_ ?_
  · exact fun r w₂ hr => hend (.ok r) w₂ hr.1
  · exact fun err w₂ hr => hend (.error err) w₂ hr

theorem validate (id : InstanceId) (d : PropertyDef) (v : Value) :
    Follows seen (e.validate id d v) := by
  unfold Engine.validate
  refine Follows.config.bind fun _ => ?_
  split
  · exact h.checkValue id d v
  · exact .pure _

theorem setProperty (id : InstanceId) (key : Symbol) (v : Value) :
    Follows seen (e.setProperty id key v) := by
  have hclear : ∀ c : ChangeHistory, c.Extends c.clearLast :=
    fun _ => ChangeHistory.extends_of_running rfl
  unfold Engine.setProperty
  refine (follows_modifyChanges hclear).bind fun _ => ?_
  refine (Follows.find id).bind fun i => ?_
  split
  · exact .pure _
  · dsimp only
    split
    · exact ⟨fun hw => .throw_bind hw⟩
    · refine Follows.config.bind fun c => ?_
      split
      · exact (h.checkValue id _ v).bind fun _ => h.changeValidated id key v
      · exact h.changeValidated id key v

end Engine.Lawful

end ProductModel
