import ProductModel.Proofs.Run.Unobtrusive
import ProductModel.Proofs.StoredValues

/-!
# Changes that are refused

A change of a property is refused if the type does not accept it, or if the product data or the type
fail.  The properties are then put back as they were before, and the type is told.

`RefusedChange` is such a change of an instance whose properties have no accessors, from the world
in which it is asked for to the one in which it is refused; what the bodies do in between is
arbitrary.  `RefusedChange.undone` says what becomes of it:

* The definitions, their states and their order are those from before, whatever the bodies declared
  and removed.
* Every value is restored.
* The type is told once, with the keys that this change wrote, after the properties were put back;
  no other body is run for that, or afterwards.
* An error of the change is its error.  Else the change results in whether a difference is found,
  and none is found unless a NaN was there before.

## Design

The engine makes a difference only where bodies are run.  Steps that run none are stated for all
engines at once (`Bodiless`), which leaves exactly one place at the end where the type is told.
-/

namespace ProductModel

open ProductModel.Action

variable {β σ : Type} {id : InstanceId} {key : Symbol} {v : Value}

/-- The world in which nothing is known of the change that ended last. -/
def World.clearing (w : World β σ) : World β σ :=
  { w with model := { w.model with changes := w.model.changes.clearLast } }

/-- **A change of a property that is refused.** -/
structure RefusedChange (e : Engine β σ) (id : InstanceId) (key : Symbol) (v : Value) where
  /-- the world in which the change is asked for -/
  asked : World β σ
  /-- the world in which the value was found to be valid -/
  checked : World β σ
  /-- the world in which the change starts -/
  begun : World β σ
  /-- the world in which the change is refused -/
  failed : World β σ
  definition : PropertyDef
  /-- the instance before the change -/
  before : Instance β
  /-- the instance when the change is refused -/
  now : Instance β
  accepted : Except ModelError Bool
  declared : ∃ i, asked.model.arena.get? id = some i ∧ i.properties.get? key = some definition
  enabled : definition.state ≠ .disabled
  admitted : (e.validate id definition v).outcome asked.clearing = some (.ok (), checked)
  there : checked.model.arena.get? id = some before
  plain : checked.Plain before.properties before.type
  captured : (e.capture id).outcome checked = some (.ok before.captured, begun)
  tried : (e.writeAndAsk id key v).outcome begun.starting = some (accepted, failed)
  refused : accepted ≠ .ok true
  survives : failed.model.arena.get? id = some now
  stillPlain : failed.Plain before.properties now.type

namespace RefusedChange

variable {e : Engine β σ} (c : RefusedChange e id key v)

/-- The value of a property after everything was put back. -/
def restored (k : Symbol) : Value := (c.now.stored k).restored (c.before.propertyValue k)

/-- **The properties were put back**, and nothing but the properties of this instance differs from
the world of the refusal. -/
structure PutBack (w : World β σ) (back : Instance β) : Prop where
  bodiless : Bodiless (·.restore id c.before.captured) c.failed () w
  apart : c.failed.Apart id w
  there : w.model.arena.get? id = some back
  rest : back = { c.now with properties := back.properties, dynamic := back.dynamic }
  table : back.properties = c.before.properties
  values : ∀ k, back.propertyValue k = c.restored k

/-- **The type is told** and leaves the properties as they were put back. -/
structure Told (w : World β σ) (back : Instance β) (w' : World β σ) (after : Instance β) :
    Prop where
  told : ∃ answer, (e.propsChanged id c.failed.model.changes.current false).outcome w =
    some (.ok answer, w')
  there : w'.model.arena.get? id = some after
  table : after.properties = back.properties
  values : ∀ k, after.propertyValue k = back.propertyValue k
  plain : w'.Plain after.properties after.type

/-- **A difference is found** although everything was put back: a NaN was there before, in a bound
or a choice, or in a value that is not the same as the one it was put back over. -/
def FindsDifference : Prop :=
  HasNaN c.before.properties.floats ∨
    ∃ k ∈ c.before.properties.keys, (c.now.stored k).same (c.before.propertyValue k) = false ∧
      HasNaN (c.before.propertyValue k).floats

/-- **How a refused change ends**: with its error, or with whether a difference is found.  Nothing
but the comparison comes after the type was told, and every property can be read as it was
restored. -/
structure Ends (w' : World β σ) (result : Except ModelError Bool) (final : World β σ) : Prop where
  result : ∃ found, result = c.accepted.map (fun _ => found) ∧ (found = true ↔ c.FindsDifference) ∧
    (final = w'.finishing ∨
      ∃ u, Bodiless (·.compare id c.before.captured) w' found u ∧ final = u.finishing)
  there : ∃ j, final.model.arena.get? id = some j ∧ j.properties = c.before.properties
  values : ∀ k, ∃ u, Bodiless (·.getProperty id k) final (c.restored k) u

end RefusedChange

/-! ## The steps -/

namespace Engine

variable {w w' : World β σ} {i : Instance β} {e : Engine β σ}

/-- **Setting a declared property** that is not disabled: the value is checked, and then the change
is made. -/
theorem outcome_setProperty_eq {d : PropertyDef} (hi : w.model.arena.get? id = some i)
    (hd : i.properties.get? key = some d) (henabled : d.state ≠ .disabled) :
    (e.setProperty id key v).outcome w =
      (e.validate id d v >>= fun _ => e.changeValidated id key v).outcome w.clearing := by
  have hclear : (modifyChanges (·.clearLast) : Action β σ Unit).outcome w =
      some (.ok (), w.clearing) := rfl
  have hi' : w.clearing.model.arena.get? id = some i := hi
  have hconfig : (config : Action β σ Config).outcome w.clearing =
      some (.ok w.config, w.clearing) := rfl
  unfold setProperty validate
  rw [outcome_bind_ok hclear, outcome_bind_ok (outcome_find hi'), hd, outcome_bind (config >>= _),
    outcome_bind_ok hconfig]
  dsimp only
  rw [if_neg henabled, outcome_bind_ok hconfig]
  by_cases hvalidate : w.config.validateProperties = true
  · rw [if_pos hvalidate, if_pos hvalidate, outcome_bind]
    rfl
  · rw [if_neg hvalidate, if_neg hvalidate]
    rfl

/-- A value that was admitted is what is left to be set. -/
theorem outcome_setProperty {d : PropertyDef} (hi : w.model.arena.get? id = some i)
    (hd : i.properties.get? key = some d) (henabled : d.state ≠ .disabled)
    (hvalid : (e.validate id d v).outcome w.clearing = some (.ok (), w')) :
    (e.setProperty id key v).outcome w = (e.changeValidated id key v).outcome w' := by
  rw [outcome_setProperty_eq hi hd henabled, outcome_bind_ok hvalid]

/-- A value is admitted without a trace, unless its choices have to be computed. -/
theorem eq_clearing_of_valid {d : PropertyDef} (hchoice : d.kind.choiceMethod? = none)
    (hvalid : (e.validate id d v).outcome w.clearing = some (.ok (), w')) : w' = w.clearing := by
  have hall : (e.validate id d v).Always w.clearing (fun _ w' => w' = w.clearing)
      fun _ _ => True := by
    unfold validate checkValue refusal
    simp only [always_bind, always_config]
    split
    · rw [always_bind]
      cases d.validate v with
      | error message => simp
      | ok _ => simp [hchoice]
    · simp
  exact hall.of_ok hvalid

/-- What a change comes to that starts. -/
theorem outcome_changeValidated {before : PropertyCapture} {r : Except ModelError Bool}
    {w₁ w₂ : World β σ} (hcapture : (e.capture id).outcome w = some (.ok before, w₁))
    (happly : (e.applyChange id key v before).outcome w₁.starting = some (r, w₂)) :
    (e.changeValidated id key v).outcome w = some (r, w₂.finishing) := by
  have hstart : (modifyChanges (·.start) : Action β σ Unit).outcome w₁ =
      some (.ok (), w₁.starting) := rfl
  have hattempt : (attempt (e.applyChange id key v before)).outcome w₁.starting =
      some (.ok r, w₂) := by
    rw [outcome_attempt, happly]
    rfl
  have hfinish : (modifyChanges (·.finish) : Action β σ Unit).outcome w₂ =
      some (.ok (), w₂.finishing) := rfl
  unfold changeValidated
  rw [outcome_bind_ok hcapture, outcome_bind_ok hstart, outcome_bind_ok hattempt,
    outcome_bind_ok hfinish]
  cases r <;> rfl

end Engine

/-- **A change of a property that begins**: the value was found to be valid, and the properties were
captured. -/
structure BegunChange (e : Engine β σ) (id : InstanceId) (key : Symbol) (v : Value) where
  /-- the world in which the change is asked for -/
  asked : World β σ
  /-- the world in which the value was found to be valid -/
  checked : World β σ
  /-- the world in which the change starts -/
  begun : World β σ
  definition : PropertyDef
  captured : PropertyCapture
  declared : ∃ i, asked.model.arena.get? id = some i ∧ i.properties.get? key = some definition
  enabled : definition.state ≠ .disabled
  admitted : (e.validate id definition v).outcome asked.clearing = some (.ok (), checked)
  capture : (e.capture id).outcome checked = some (.ok captured, begun)

namespace BegunChange

variable {e : Engine β σ} (c : BegunChange e id key v)

/-- What a change comes to that begins. -/
theorem outcome_setProperty {r : Except ModelError Bool} {u : World β σ}
    (happly : (e.applyChange id key v c.captured).outcome c.begun.starting = some (r, u)) :
    (e.setProperty id key v).outcome c.asked = some (r, u.finishing) := by
  obtain ⟨i, hi, hd⟩ := c.declared
  rw [Engine.outcome_setProperty hi hd c.enabled c.admitted]
  exact Engine.outcome_changeValidated c.capture happly

/-- **A change with a result has begun**, unless there is no such property. -/
theorem exists_of_outcome {asked final : World β σ} {b : Bool}
    (hset : (e.setProperty id key v).outcome asked = some (.ok b, final)) :
    ∃ i, asked.model.arena.get? id = some i ∧
      (i.properties.get? key = none ∧ b = false ∧ final = asked.clearing ∨
        ∃ (c : BegunChange e id key v) (u : World β σ), c.asked = asked ∧
          (e.applyChange id key v c.captured).outcome c.begun.starting = some (.ok b, u) ∧
          final = u.finishing) := by
  have hclear : (modifyChanges (·.clearLast) : Action β σ Unit).outcome asked =
      some (.ok (), asked.clearing) := rfl
  have hset' := hset
  unfold Engine.setProperty at hset'
  rw [outcome_bind_ok hclear] at hset'
  obtain ⟨i, u, hfind, hset'⟩ := exists_of_bind_ok hset'
  have hi : asked.model.arena.get? id = some i ∧ u = asked.clearing := by
    have hall : (find id : Action β σ (Instance β)).Always asked.clearing
        (fun j u => asked.model.arena.get? id = some j ∧ u = asked.clearing) fun _ _ => True :=
      (always_find id).mpr ⟨fun _ hj => ⟨hj, rfl⟩, fun _ => True.intro⟩
    exact hall.of_ok hfind
  obtain ⟨hi, rfl⟩ := hi
  refine ⟨i, hi, ?_⟩
  cases hd : i.properties.get? key with
  | none =>
    rw [hd] at hset'
    cases hset'
    exact .inl ⟨rfl, rfl, rfl⟩
  | some d =>
    have henabled : d.state ≠ .disabled := by
      intro hdisabled
      rw [hd] at hset'
      dsimp only at hset'
      rw [if_pos hdisabled] at hset'
      cases hset'
    rw [Engine.outcome_setProperty_eq hi hd henabled] at hset
    obtain ⟨_, checked, hvalid, hchange⟩ := exists_of_bind_ok hset
    obtain ⟨captured, begun, hcapture, hchange⟩ := exists_of_bind_ok hchange
    obtain ⟨_, started, hstart, hchange⟩ := exists_of_bind_ok hchange
    obtain ⟨result, u, happly, hchange⟩ := exists_of_bind_ok hchange
    obtain ⟨_, finished, hfinish, hresult⟩ := exists_of_bind_ok hchange
    cases hstart
    cases hfinish
    rw [outcome_attempt, Option.map_eq_some_iff] at happly
    obtain ⟨⟨r, u'⟩, happly, heq⟩ := happly
    obtain ⟨hr, rfl⟩ := Prod.mk.inj heq
    obtain rfl := Except.ok.inj hr
    cases r with
    | ok b' =>
      cases hresult
      exact .inr ⟨⟨asked, checked, begun, d, captured, ⟨i, hi, hd⟩, henabled, hvalid, hcapture⟩,
        u', rfl, happly, rfl⟩
    | error err => cases hresult

end BegunChange

namespace Engine

variable {w w' : World β σ} {i : Instance β} {e : Engine β σ}

/-- What a change comes to that is not accepted. -/
theorem outcome_applyChange {before : PropertyCapture} {accepted : Except ModelError Bool}
    (htry : (e.writeAndAsk id key v).outcome w = some (accepted, w'))
    (hrefused : accepted ≠ .ok true) :
    (e.applyChange id key v before).outcome w =
      (e.rollBack id before accepted >>= fun _ => e.compare id before).outcome w' := by
  have hattempt : (attempt (e.writeAndAsk id key v)).outcome w = some (.ok accepted, w') := by
    rw [outcome_attempt, htry]
    rfl
  unfold applyChange
  rw [outcome_bind_ok hattempt]
  rcases accepted with err | (_ | _)
  · rfl
  · rfl
  · exact absurd rfl hrefused

/-- **What taking a change back comes to**: the error of the change comes before that of the
notice. -/
theorem outcome_rollBack_noticed {before : PropertyCapture} (accepted : Except ModelError Bool)
    {noticed : Except ModelError Bool} {w₁ w₂ : World β σ}
    (hrestore : (e.restore id before).outcome w = some (.ok (), w₁))
    (hnotice : (e.propsChanged id w.model.changes.current false).outcome w₁ =
      some (noticed, w₂)) :
    (e.rollBack id before accepted).outcome w =
      some (accepted.bind fun _ => noticed.map fun _ => (), w₂) := by
  have hkeys : (currentKeys : Action β σ (List Symbol)).outcome w =
      some (.ok w.model.changes.current, w) := rfl
  have hattempt : (attempt (e.propsChanged id w.model.changes.current false)).outcome w₁ =
      some (.ok noticed, w₂) := by
    rw [outcome_attempt, hnotice]
    rfl
  unfold rollBack
  rw [outcome_bind_ok hkeys, outcome_bind_ok hrestore, outcome_bind_ok hattempt]
  cases accepted <;> cases noticed <;> rfl

/-- What taking a change back comes to, if the type was told. -/
theorem outcome_rollBack {before : PropertyCapture} {accepted : Except ModelError Bool}
    {answer : Bool} {w₁ w₂ : World β σ}
    (hrestore : (e.restore id before).outcome w = some (.ok (), w₁))
    (htold : (e.propsChanged id w.model.changes.current false).outcome w₁ =
      some (.ok answer, w₂)) :
    (e.rollBack id before accepted).outcome w = some (accepted.map fun _ => (), w₂) := by
  rw [outcome_rollBack_noticed accepted hrestore htold]
  cases accepted <;> rfl

end Engine

/-! ### Comparing -/

theorem sameValues_map (f g : Symbol → Value) (keys : List Symbol) :
    PropertyCapture.sameValues (keys.map fun k => (k, f k)) (keys.map fun k => (k, g k)) =
      keys.all fun k => (f k).same (g k) := by
  induction keys with
  | nil => rfl
  | cons k keys ih => simp [PropertyCapture.sameValues, ih]

/-- **Comparing properties without accessors** with those from before.  Nothing changes but the mark
of a changed instance. -/
theorem bodiless_compare {w : World β σ} {before after : Instance β}
    (hi : w.model.arena.get? id = some after) (hplain : w.Plain after.properties after.type)
    (htable : after.properties = before.properties) :
    ∃ w' changed, Bodiless (·.compare id before.captured) w
        (!(before.properties.keys.all fun k =>
            (after.propertyValue k).same (before.propertyValue k)) ||
          !(before.properties == before.properties)) w' ∧
      w.Apart id w' ∧ w'.model.arena.get? id = some { after with changed } ∧ w.Keeps w' := by
  obtain ⟨w₁, hcapture, hagrees⟩ := bodiless_capture hi hplain
  have hi₁ : w₁.model.arena.get? id = some after := by rw [hagrees.model, hi]
  have hsame : PropertyCapture.sameValues after.captured.values before.captured.values =
      before.properties.keys.all fun k =>
        (after.propertyValue k).same (before.propertyValue k) := by
    unfold Instance.captured
    rw [htable]
    exact sameValues_map _ _ _
  by_cases hall : (before.properties.keys.all fun k =>
      (after.propertyValue k).same (before.propertyValue k)) = true
  · refine ⟨w₁, after.changed, fun e => ?_, hagrees.apart, hi₁, hagrees.keeps⟩
    show (e.compare id before.captured).outcome w = _
    unfold Engine.compare
    rw [outcome_bind_ok (hcapture e), hsame, hall]
    show some (Except.ok (!(after.properties == before.properties)), w₁) = _
    rw [htable]
    rfl
  · refine ⟨{ w₁ with model := w₁.model.modify id fun i => { i with changed := true } }, true,
      fun e => ?_, hagrees.apart.trans (.modify id w₁ _), ?_,
      hagrees.keeps.trans (.modify id w₁ _)⟩
    · have hdiffers := Bool.eq_false_iff.mpr hall
      show (e.compare id before.captured).outcome w = _
      unfold Engine.compare
      rw [outcome_bind_ok (hcapture e), hsame, hdiffers]
      rw [if_pos Bool.not_false, outcome_bind_ok (outcome_update hi₁ _)]
      rfl
    · show (w₁.model.arena.modify id _).get? id = _
      rw [Arena.get?_modify_self, hi₁, Option.map_some]

/-! ### The keys of a change -/

section Keys

variable {seen : σ → Watch β} {pending : List Pending} {w w' : World β σ} {i : Instance β}
  {e : Engine β σ}

/-- **Writing a value records the key**, whatever else it comes to. -/
theorem Engine.Lawful.writeProperty_always (h : e.Lawful seen) (hw : Reachable pending w.model)
    (hi : w.model.arena.get? id = some i) :
    (e.writeProperty id key v).Always w (fun _ w' => Reached seen pending (w.recording key) w')
      fun _ w' => Reached seen pending (w.recording key) w' := by
  have hrecord : (modifyChanges (·.record key) : Action β σ Unit).outcome w =
      some (.ok (), w.recording key) := rfl
  have hrecords : Follows seen (modifyChanges (·.record key) : Action β σ Unit) :=
    follows_modifyChanges fun c => c.extends_record key
  -- The key is on record before the value is stored, and nothing takes it off again.
  have hrecorded := (hrecords.reached hw hrecord).reachable
  have hstore : Follows seen (do
      e.storeProperty id key v (← findMethod i.type (Accessor.setter key))) :=
    (Follows.findMethod _ _).bind fun found => h.storeProperty id key v found
  unfold Engine.writeProperty
  rw [always_bind, always_typeOf]
  refine ⟨fun j hj => ?_, fun hnone => ?_⟩
  · rw [hi] at hj
    cases hj
    unfold modifyChanges
    rw [always_bind, always_modifyModel]
    exact Always.mono (hstore.leads hrecorded) (fun _ _ hr => hr.1) fun _ _ hr => hr
  · rw [hi] at hnone
    cases hnone

/-- **A change that starts writes its key first.**  What it records stays apart from what the
changes around it have recorded. -/
theorem Engine.Lawful.running_writeAndAsk (h : e.Lawful seen) (hw : Reachable pending w.model)
    (hi : w.model.arena.get? id = some i) {r : Except ModelError Bool}
    (htry : (e.writeAndAsk id key v).outcome w.starting = some (r, w')) :
    ∃ more, w'.model.changes.running = (key :: more) :: w.model.changes.running := by
  have hstart : Reachable pending w.starting.model :=
    hw.edit (.retouch (.of_arena rfl fun _ hy => Or.inl hy))
  -- What comes after the write can only add keys to those that the change has recorded.
  have hrest : Follows seen (do
      e.propagate id key
      e.propsChanged id (← Action.currentKeys) true) :=
    (h.propagate id key).bind fun _ => follows_currentKeys.bind fun _ => h.propsChanged id _ true
  have hall : (e.writeAndAsk id key v).Always w.starting
      (fun _ w' => Reached seen pending (w.starting.recording key) w')
      fun _ w' => Reached seen pending (w.starting.recording key) w' := by
    unfold Engine.writeAndAsk
    rw [always_bind]
    refine Always.mono (h.writeProperty_always hstart hi) ?_ fun _ _ hr => hr
    intro _ w₁ hr
    refine Always.mono (hrest.leads hr.reachable) ?_ ?_
    · exact fun _ _ hr' => hr.trans hr'.1
    · exact fun _ _ hr' => hr.trans hr'
  have hreached : Reached seen pending (w.starting.recording key) w' := by
    cases r with
    | ok a => exact hall.of_ok htry
    | error err => exact hall.of_error htry
  exact hreached.changes

end Keys

/-! ## What becomes of a refused change -/

namespace RefusedChange

variable {e : Engine β σ} (c : RefusedChange e id key v)

/-- A change that is refused has begun. -/
def toBegun : BegunChange e id key v where
  asked := c.asked
  checked := c.checked
  begun := c.begun
  definition := c.definition
  captured := c.before.captured
  declared := c.declared
  enabled := c.enabled
  admitted := c.admitted
  capture := c.captured

/-- **What a refused change comes to** after it was tried. -/
theorem outcome_setProperty {r : Except ModelError Bool} {u : World β σ}
    (hback : (e.rollBack id c.before.captured c.accepted >>= fun _ =>
      e.compare id c.before.captured).outcome c.failed = some (r, u)) :
    (e.setProperty id key v).outcome c.asked = some (r, u.finishing) := by
  refine c.toBegun.outcome_setProperty ?_
  show (e.applyChange id key v c.before.captured).outcome c.begun.starting = _
  rw [Engine.outcome_applyChange c.tried c.refused, hback]

/-- What was captured is known, and capturing it left no trace in the model. -/
theorem begun_model : c.begun.model = c.checked.model := by
  obtain ⟨w', hcapture, hagrees⟩ := bodiless_capture c.there c.plain
  have hout := c.captured.symm.trans (hcapture e)
  have hbegun : c.begun = w' := congrArg Prod.snd (Option.some_inj.mp hout)
  rw [hbegun]
  exact hagrees.model

/-- **The properties can be put back**, and no body is run for that. -/
theorem exists_putBack : ∃ w back, c.PutBack w back := by
  obtain ⟨w, hbodiless, hapart, hthere, -⟩ := bodiless_putBack c.survives c.stillPlain
  refine ⟨w, _, hbodiless, hapart, hthere, rfl, rfl, ?_⟩
  intro k
  have htable : (c.now.putBack c.before).properties = c.before.properties := rfl
  unfold restored Instance.propertyValue
  rw [htable]
  by_cases hdeclared : c.before.properties.contains k = true
  · have hvalue : (c.now.putBack c.before).stored k = _ :=
      Instance.stored_putBack (PropertyTable.mem_keys.mpr hdeclared)
    unfold Instance.propertyValue at hvalue
    rw [if_pos hdeclared] at hvalue
    rw [if_pos hdeclared, if_pos hdeclared]
    exact hvalue
  · -- Only the absent value is the same as the absent one.
    rw [if_neg hdeclared, if_neg hdeclared]
    cases hnow : c.now.stored k <;> rfl

/-- **What is found when everything was put back.** -/
theorem found_iff {after : Instance β} (hvalues : ∀ k, after.propertyValue k = c.restored k) :
    (!(c.before.properties.keys.all fun k =>
        (after.propertyValue k).same (c.before.propertyValue k)) ||
      !(c.before.properties == c.before.properties)) = true ↔ c.FindsDifference := by
  -- What differs was written back, and so differs from itself.
  have hvalue : ∀ k, (after.propertyValue k).same (c.before.propertyValue k) = false ↔
      (c.now.stored k).same (c.before.propertyValue k) = false ∧
        HasNaN (c.before.propertyValue k).floats = true := by
    intro k
    rw [hvalues, restored, Value.restored_same, Value.same_self]
    simp
  have htable : (!(c.before.properties == c.before.properties)) =
      HasNaN c.before.properties.floats := by
    rw [PropertyTable.same_self, Bool.not_not]
  rw [htable, Bool.or_eq_true, Bool.not_eq_true', List.all_eq_false]
  unfold FindsDifference
  constructor
  · rintro (⟨k, hk, hdiffers⟩ | hnan)
    · exact .inr ⟨k, hk, (hvalue k).mp (Bool.eq_false_iff.mpr hdiffers)⟩
    · exact .inl hnan
  · rintro (hnan | ⟨k, hk, hdiffers⟩)
    · exact .inr hnan
    · exact .inl ⟨k, hk, Bool.eq_false_iff.mp ((hvalue k).mpr hdiffers)⟩

/-- What can be read when a change has ended that left the properties as they were restored. -/
theorem readable {w' u : World β σ} {after : Instance β} {changed : Bool}
    (hvalues : ∀ k, after.propertyValue k = c.restored k)
    (hplain : w'.Plain after.properties after.type) (hapart : w'.Apart id u)
    (hthere : u.model.arena.get? id = some { after with changed }) (k : Symbol) :
    ∃ u', Bodiless (·.getProperty id k) u.finishing (c.restored k) u' := by
  have hend : w'.Apart id u.finishing := hapart.trans (.changing id u _)
  have hthere' : u.finishing.model.arena.get? id = some { after with changed } := hthere
  obtain ⟨u', hread, -⟩ := bodiless_getProperty k hthere' (hend.plain hplain)
  have hvalue : ({ after with changed } : Instance β).propertyValue k = c.restored k := hvalues k
  rw [hvalue] at hread
  exact ⟨u', hread⟩

/-- **The end of a refused change** whose type was told. -/
theorem exists_ends {w w' : World β σ} {back after : Instance β} (hback : c.PutBack w back)
    (htold : c.Told w back w' after) :
    ∃ result final, (e.setProperty id key v).outcome c.asked = some (result, final) ∧
      c.Ends w' result final := by
  obtain ⟨answer, hanswer⟩ := htold.told
  have htable : after.properties = c.before.properties := htold.table.trans hback.table
  have hvalues : ∀ k, after.propertyValue k = c.restored k :=
    fun k => (htold.values k).trans (hback.values k)
  have hroll : (e.rollBack id c.before.captured c.accepted).outcome c.failed =
      some (c.accepted.map fun _ => (), w') :=
    Engine.outcome_rollBack (hback.bodiless e) hanswer
  obtain ⟨u, changed, hcompare, hapart, hthere, -⟩ :=
    bodiless_compare htold.there htold.plain htable
  have hfound := c.found_iff hvalues
  -- From here on it matters no more how a difference is found.
  generalize hresult : (!(c.before.properties.keys.all fun k =>
    (after.propertyValue k).same (c.before.propertyValue k)) ||
      !(c.before.properties == c.before.properties)) = found at hcompare hfound
  cases haccepted : c.accepted with
  | error err =>
    have hback : (e.rollBack id c.before.captured c.accepted).outcome c.failed =
        some (.error err, w') := by
      rw [hroll, haccepted]
      rfl
    have hout := c.outcome_setProperty (outcome_bind_error hback)
    refine ⟨_, _, hout, ⟨found, ?_, hfound, .inl rfl⟩, ⟨after, htold.there, htable⟩, ?_⟩
    · rw [haccepted]
      rfl
    · exact c.readable hvalues htold.plain (.refl id w') htold.there
  | ok answer =>
    have hback : (e.rollBack id c.before.captured c.accepted).outcome c.failed =
        some (.ok (), w') := by
      rw [hroll, haccepted]
      rfl
    have hout := c.outcome_setProperty ((outcome_bind_ok hback).trans (hcompare e))
    refine ⟨_, _, hout, ⟨found, ?_, hfound, .inr ⟨u, hcompare, rfl⟩⟩,
      ⟨_, hthere, htable⟩, ?_⟩
    · rw [haccepted]
      rfl
    · exact c.readable hvalues htold.plain hapart hthere

/-- **A refused change is undone.** -/
theorem undone {L : Language β σ} {allowance : Nat} {pending : List Pending}
    (c : RefusedChange (L.engine allowance) id key v) (hasked : Reachable pending c.asked.model) :
    (c.definition.kind.choiceMethod? = none → c.checked = c.asked.clearing) ∧
    (∀ k, ∃ u, Bodiless (·.getProperty id k) c.checked (c.before.propertyValue k) u) ∧
    (∃ more, c.failed.model.changes.running = (key :: more) :: c.checked.model.changes.running) ∧
    (∀ k, (c.before.propertyValue k).floats = [] → c.restored k = c.before.propertyValue k) ∧
    ∃ w back, c.PutBack w back ∧ ∀ w' after, c.Told w back w' after →
      ∃ result final,
        (perform L (allowance + 1) (.setProperty id key v)).outcome c.asked =
          some (result, final) ∧
        c.Ends w' result final := by
  refine ⟨fun hchoice => Engine.eq_clearing_of_valid hchoice c.admitted, ?_, ?_, ?_, ?_⟩
  · intro k
    obtain ⟨u, hread, -⟩ := bodiless_getProperty k c.there c.plain
    exact ⟨u, hread⟩
  · -- The invariants of a run are known of watched engines, which come to the same results.
    have hlawful := L.lawful_watched allowance
    have halike := L.alike_watched allowance
    have hcleared : Reachable pending c.asked.clearing.model :=
      hasked.edit (.retouch (.of_arena rfl fun _ hy => Or.inl hy))
    have hbegun : Reachable pending c.begun.model := by
      rw [c.begun_model]
      exact (halike.validate id _ v).reachable (hlawful.validate id _ v) hcleared c.admitted
    have hthere : c.begun.model.arena.get? id = some c.before := by
      rw [c.begun_model, c.there]
    obtain ⟨u, htried, hfailed⟩ := (halike.writeAndAsk id key v).exists_outcome c.tried
    obtain ⟨more, hmore⟩ := hlawful.running_writeAndAsk (w := c.begun.watching) hbegun hthere htried
    rw [hfailed] at hmore
    exact ⟨more, by rw [hmore, ← c.begun_model]; rfl⟩
  · exact fun k hfloats => Value.restored_eq hfloats
  · obtain ⟨w, back, hback⟩ := c.exists_putBack
    exact ⟨w, back, hback, fun w' after htold => c.exists_ends hback htold⟩

end RefusedChange

/-- **Telling leaves the model alone** where all methods give one answer. -/
theorem Engine.model_of_propsChanged {e : Engine β σ} {answer : Value}
    (hmethods : ∀ body call, e.run (e.language.method body call) = pure answer)
    {keys : List Symbol} {asking : Bool} {w w' : World β σ} {r : Except ModelError Bool}
    (h : (e.propsChanged id keys asking).outcome w = some (r, w')) : w'.model = w.model := by
  -- A method that is called has its call checked, and gives the answer.
  have hinvoke : ∀ (m : Method β) args (u : World β σ), u.model = w.model →
      (e.invoke m (some id) args).Always u (fun _ w' => w'.model = w.model)
        fun _ w' => w'.model = w.model := by
    intro m args u hu
    unfold Engine.invoke
    rw [hmethods, always_bind]
    refine Always.mono (checkCall_always m (some id) args) ?_ ?_
    · rintro _ _ rfl
      exact (always_pure _).mpr hu
    · rintro _ _ rfl
      exact hu
  have hall : (e.propsChanged id keys asking).Always w (fun _ w' => w'.model = w.model)
      fun _ w' => w'.model = w.model := by
    unfold Engine.propsChanged
    rw [always_bind, always_typeOf]
    refine ⟨fun i _ => ?_, fun _ => rfl⟩
    rw [always_bind, always_findMethod]
    split
    all_goals
      split
      · exact (always_pure true).mpr rfl
      · rw [always_bind]
        refine Always.mono (hinvoke _ _ _ ?_) (fun _ _ hsame => ?_) fun _ _ hsame => hsame
        · rfl
        · exact (always_pure _).mpr hsame
  cases r with
  | ok answer => exact hall.of_ok h
  | error err => exact hall.of_error h

/-! ## A lamp that cannot be switched -/

namespace Lamp

/-- Whether a lamp is lit. -/
def lit : PropertyDef := { key := ⟨"lit"⟩, name := "Lit", kind := .bool }

/-- The color of its light. -/
def hue : PropertyDef := { key := ⟨"hue"⟩, name := "Hue", kind := .int }

/-- **The code of a lamp.**  Its method refuses every change, and its product data replace one
property by another. -/
def language : Language Unit Unit where
  method _ _ := .pure (.bool false)
  rule _ _ := .pure .accept
  evaluate _ lamp _ := do
    let _ ← Program.call (Op.removeProperty lamp lit.key)
    let _ ← Program.call (Op.setupProperty lamp hue)
    Program.call (Op.writeProperty lamp hue.key (.int 7))
  inspect _ _ := .pure ()
  transformed _ _ _ host := host

/-- Builds a lamp that is not lit. -/
def build : Body Unit Unit Unit := do
  let _ ← Program.call (Op.register
    { name := "Lamp", methods := [{ name := Engine.propsChangedName, body := () }] })
  let lamp ← Program.call (Op.instantiate "Lamp" none "lamp" [])
  Program.call (Op.setProductData lamp { evaluate := some () })
  let _ ← Program.call (Op.setupProperty lamp lit)
  Program.call (Op.writeProperty lamp lit.key (.bool false))

/-- Telling a lamp leaves the model alone. -/
theorem model_of_propsChanged {allowance : Nat} {lamp : InstanceId} {keys : List Symbol}
    {asking answer : Bool} {w w' : World Unit Unit}
    (h : ((language.engine allowance).propsChanged lamp keys asking).outcome w =
      some (.ok answer, w')) : w'.model = w.model :=
  Engine.model_of_propsChanged (fun _ _ => rfl) h

/-- **An attempt to switch a lamp on**, which is refused after the product data have replaced the
property.  The type can be told about it. -/
theorem exists_refused :
    ∃ c : RefusedChange (language.engine 2) ⟨0, 0⟩ lit.key (.bool true),
      Reachable [] c.asked.model ∧ c.accepted = .ok false ∧ c.now.properties.keys = [hue.key] ∧
      c.before.properties.keys = [lit.key] ∧ HasNaN c.before.properties.floats = false ∧
      c.before.propertyValue lit.key = .bool false ∧
      ∃ r w answer w' after,
        ((language.engine 2).restore ⟨0, 0⟩ c.before.captured).outcome c.failed = some (r, w) ∧
        ((language.engine 2).propsChanged ⟨0, 0⟩ c.failed.model.changes.current false).outcome w =
          some (.ok answer, w') ∧
        w'.model.arena.get? ⟨0, 0⟩ = some after ∧ w'.Plain after.properties after.type := by
  have hrun : ((Body.exec language 3 build).outcome { host := () }).any (fun built =>
      (built.2.model.arena.get? ⟨0, 0⟩).any fun i =>
      (i.properties.get? lit.key).any fun d => d.state ≠ .disabled &&
      (((language.engine 2).validate ⟨0, 0⟩ d (.bool true)).outcome built.2.clearing).any
        fun checked => checked.1.isOk && (checked.2.model.arena.get? ⟨0, 0⟩).any fun before =>
      checked.2.Plain before.properties before.type &&
        (before.propertyValue lit.key).same (.bool false) &&
        before.properties.keys = [lit.key] && HasNaN before.properties.floats = false &&
      (((language.engine 2).capture ⟨0, 0⟩).outcome checked.2).any fun begun =>
      (((language.engine 2).writeAndAsk ⟨0, 0⟩ lit.key (.bool true)).outcome
        begun.2.starting).any fun failed => failed.1.isOk && !failed.1.toOption.getD true &&
      (failed.2.model.arena.get? ⟨0, 0⟩).any fun now =>
      failed.2.Plain before.properties now.type && now.properties.keys = [hue.key] &&
      (((language.engine 2).restore ⟨0, 0⟩ before.captured).outcome failed.2).any fun back =>
      (((language.engine 2).propsChanged ⟨0, 0⟩ failed.2.model.changes.current
        false).outcome back.2).any fun told =>
      told.1.isOk && (told.2.model.arena.get? ⟨0, 0⟩).any fun after =>
        told.2.Plain after.properties after.type) = true := by
    decide +kernel
  simp only [Option.any_eq_true, Bool.and_eq_true, decide_eq_true_eq, Prod.exists] at hrun
  obtain ⟨_, asked, hbuilt, i, hi, d, hd, henabled, valid, checked, hvalid, hok, before, hbefore,
    ⟨⟨⟨hplain, hdark⟩, hkeys⟩, hnumbers⟩, captured, begun, hcapture, accepted, failed, htry,
    ⟨hanswered, hrefused⟩, now, hnow, ⟨hstill, hhue⟩, r, w, hrestore, answer, w', htold,
    hanswer, after, hafter, hafterPlain⟩ := hrun
  have hasked : Reachable [] asked.model :=
    (mirrors_watched (mirrors_perform language 3) build).reachable (follows_exec language 3 build)
      (.empty rfl rfl) hbuilt
  obtain ⟨u, hbodiless, -⟩ := bodiless_capture hbefore hplain
  obtain ⟨rfl, rfl⟩ := Prod.mk.inj (Option.some.inj (hcapture.symm.trans (hbodiless _)))
  obtain _ | _ := valid
  · cases hok
  obtain _ | answer := answer
  · cases hanswer
  obtain _ | _ | _ := accepted
  · cases hanswered
  · exact ⟨{
      asked, checked, begun, failed, definition := d, before, now, accepted := .ok false
      declared := ⟨i, hi, hd⟩, enabled := henabled, admitted := hvalid, there := hbefore
      plain := hplain, captured := hcapture, tried := htry, refused := nofun, survives := hnow
      stillPlain := hstill },
      hasked, rfl, hhue, hkeys, hnumbers, Value.eq_of_same hdark rfl,
      r, w, answer, w', after, hrestore, htold, hafter, hafterPlain⟩
  · cases hrefused

end Lamp

namespace RefusedChange

/-- A lamp refuses to be switched on, after its product data have replaced the property.  Afterwards
the property is there again, and the lamp is not lit. -/
theorem undone_lamp :
    ∃ c : RefusedChange (Lamp.language.engine 2) ⟨0, 0⟩ Lamp.lit.key (.bool true),
      Reachable [] c.asked.model ∧ c.now.properties.keys = [Lamp.hue.key] ∧
      ∃ w back w' after final, c.Told w back w' after ∧
        (perform Lamp.language 3 (.setProperty ⟨0, 0⟩ Lamp.lit.key (.bool true))).outcome c.asked =
          some (.ok false, final) ∧
        c.Ends w' (.ok false) final ∧
        ∃ u, Bodiless (·.getProperty ⟨0, 0⟩ Lamp.lit.key) final (.bool false) u := by
  obtain ⟨c, hasked, haccepted, hhue, hkeys, hnumbers, hvalue, r, w, answer, w', after, hrestore,
    htold, hafter, hplain⟩ := Lamp.exists_refused
  have hfloats : (c.before.propertyValue Lamp.lit.key).floats = [] := by
    rw [hvalue]
    rfl
  obtain ⟨-, -, -, hexact, w₁, back, hback, hend⟩ := RefusedChange.undone c hasked
  obtain ⟨-, rfl⟩ := Prod.mk.inj (Option.some.inj ((hback.bodiless _).symm.trans hrestore))
  have hthere : w'.model.arena.get? ⟨0, 0⟩ = some back := by
    rw [Lamp.model_of_propsChanged htold]
    exact hback.there
  obtain rfl : after = back := Option.some.inj (hafter.symm.trans hthere)
  have htelling : c.Told w₁ after w' after :=
    ⟨⟨answer, htold⟩, hthere, rfl, fun _ => rfl, hplain⟩
  obtain ⟨result, final, hout, hends⟩ := hend w' after htelling
  obtain ⟨found, hresult, hfound, -⟩ := hends.result
  have hnothing : ¬c.FindsDifference := by
    rintro (hnan | ⟨k, hk, -, hnan⟩)
    · rw [hnumbers] at hnan
      cases hnan
    · rw [hkeys, List.mem_singleton] at hk
      rw [hk, hfloats] at hnan
      cases hnan
  obtain rfl : found = false := Bool.eq_false_iff.mpr fun hfinds => hnothing (hfound.mp hfinds)
  rw [haccepted] at hresult
  obtain rfl : result = .ok false := hresult
  obtain ⟨v, hread⟩ := hends.values Lamp.lit.key
  rw [hexact _ hfloats, hvalue] at hread
  exact ⟨c, hasked, hhue, w₁, after, w', after, final, htelling, hout, hends, v, hread⟩

end RefusedChange

end ProductModel
