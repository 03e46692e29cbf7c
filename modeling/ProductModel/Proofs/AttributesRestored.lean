import ProductModel.Proofs.Lifetime
import ProductModel.Proofs.Run.Modest

/-!
# Attributes after a change that is refused

Property values share their place with other attributes, and an attribute hides the field and the
method of its name.  So what `getAttr` answers after a refused change is more than the values that
`getProperty` tells: it depends on whether a value is stored at all.

Where the bodies are modest about the instance and the type does nothing when it is told,
`RefusedChange.attributes_restored` gives the answer to every name after the change.  It is the one
from before, a value or an error, unless the name leaks (`RefusedChange.Leaks`):

* A declared property had no stored value, and was written.  The absent value is written back as a
  value, and hides what the name meant before.
* A name was an attribute, and was declared as a property.  The attribute is dropped together with
  the property.
* A name was written without being declared as a property.  It is not looked at.
* A name was written by the method that computes the choices for the value, before the change began.

## Design

An answer is a function of the world and of what is stored for the name, `World.answer`; asking only
leaves traces of reading.  What is stored in the end is another function, `RefusedChange.slotAfter`.
-/

namespace ProductModel

open ProductModel.Action

variable {β σ : Type} {w w' : World β σ} {id : InstanceId} {key name : Symbol} {v : Value}
  {i j : Instance β}

/-! ## Answers -/

/-- What a name means on an instance where `slot` is stored for it, if anything. -/
def World.attribute? (w : World β σ) (id : InstanceId) (i : Instance β) (name : Symbol)
    (slot : Option Value) : Option (Attribute β) :=
  match w.model.arena.childNamed id name.label with
  | some child => some (.child child)
  | none =>
    match slot with
    | some v => some (.dynamic v)
    | none =>
      match i.fields.get? name with
      | some v => some (.field v)
      | none => (w.finds i.type name).map fun found => .method found.1 found.2

/-- **The answer to a name** where `slot` is stored for it: its value, or the error of a method or
of a name without a meaning. -/
def World.answer (w : World β σ) (id : InstanceId) (i : Instance β) (name : Symbol)
    (slot : Option Value) : Except ModelError Value :=
  match w.attribute? id i name slot with
  | none => .error (.dispatch (.noSuchAttribute (w.model.arena.describe id).1 name.label))
  | some a =>
    match a.value? with
    | some v => .ok v
    | none => .error (.dispatch (.methodAsValue name.label))

/-- **Resolving a name** finds what it means. -/
theorem exists_resolve (hi : w.model.arena.get? id = some i) (name : Symbol) :
    ∃ w', (resolve id name : Action β σ (Attribute β)).outcome w =
      some ((w.attribute? id i name (i.dynamic.get? name)).elim
        (.error (.dispatch (.noSuchAttribute (w.model.arena.describe id).1 name.label))) .ok,
        w') := by
  have hmodel : (Action.model : Action β σ (Model β)).outcome w = some (.ok w.model, w) := rfl
  -- The search goes on as long as nothing is found: children, slots, fields, methods.
  unfold resolve World.attribute?
  rw [outcome_bind_ok (outcome_find hi), outcome_bind_ok hmodel]
  cases w.model.arena.childNamed id name.label with
  | some child => exact ⟨w, rfl⟩
  | none =>
    cases i.dynamic.get? name with
    | some v => exact ⟨w, rfl⟩
    | none =>
      cases i.fields.get? name with
      | some v => exact ⟨w, rfl⟩
      | none =>
        dsimp only
        rw [outcome_bind_ok (outcome_findMethod _ _)]
        cases w.finds i.type name with
        | some found => exact ⟨_, rfl⟩
        | none =>
          dsimp only
          rw [outcome_bind_ok (outcome_describe id _), World.model_lookingUp]
          exact ⟨_, rfl⟩

/-- **Asking for an attribute** gives the answer to its name. -/
theorem exists_getAttr (hi : w.model.arena.get? id = some i) (name : Symbol) :
    ∃ w', (getAttr id name : Action β σ Value).outcome w =
      some (w.answer id i name (i.dynamic.get? name), w') := by
  obtain ⟨w', hr⟩ := exists_resolve hi name
  refine ⟨w', ?_⟩
  unfold getAttr World.answer
  cases ha : w.attribute? id i name (i.dynamic.get? name) with
  | none =>
    rw [ha] at hr
    exact outcome_bind_error hr
  | some a =>
    rw [ha] at hr
    rw [outcome_bind_ok (a := a) hr]
    cases a <;> rfl

/-! ## Answers in two worlds -/

/-- The name of an instance in messages depends on links and local names alone. -/
theorem describe_eq_of_confined {pending pending' : List Pending}
    (hw : Reachable pending w.model) (hw' : Reachable pending' w'.model)
    (h : w.Confined id w') (hi : w.model.arena.get? id = some i) :
    (w'.model.arena.describe id).1 = (w.model.arena.describe id).1 := by
  obtain ⟨j, hj, -⟩ := h.forth hi
  rw [hw.wellNamed.describe_eq_pathName hw.sound.coherent hi,
    hw'.wellNamed.describe_eq_pathName hw'.sound.coherent hj]
  have hnamed := (Arena.named_pathName hw.sound.coherent.forest hi).transfer (b := w'.model.arena)
    (fun _ => True) trivial (fun _ _ _ => trivial) ?_
  · exact (Arena.named_pathName hw'.sound.coherent.forest hj).unique hnamed
  · intro y k _ hk
    by_cases hy : y = id
    · subst hy
      obtain ⟨k', hk', hbare⟩ := h.forth hk
      exact ⟨k', hk', Instance.eq_of_bare hbare (·.father) fun _ => rfl,
        Instance.eq_of_bare hbare (·.localName) fun _ => rfl⟩
    · obtain ⟨k', hk', hname⟩ := Arena.exists_get?_of_map_eq (h.others y hy) hk
      exact ⟨k', hk', Instance.eq_of_forgetName hname (·.father) fun _ => rfl,
        Instance.eq_of_forgetName hname (·.localName) fun _ => rfl⟩

/-- The child of a name depends on links and local names alone. -/
theorem childNamed_eq_of_confined (h : w.Confined id w') (hi : w.model.arena.get? id = some i)
    (name : String) :
    w'.model.arena.childNamed id name = w.model.arena.childNamed id name := by
  obtain ⟨j, hj, hbare⟩ := h.forth hi
  have hchildren : j.children = i.children := Instance.eq_of_bare hbare (·.children) fun _ => rfl
  have hname : ∀ y, w'.model.arena.localName? y = w.model.arena.localName? y := by
    intro y
    unfold Arena.localName?
    by_cases hy : y = id
    · rw [hy, hi, hj]
      exact congrArg some (Instance.eq_of_bare hbare (·.localName) fun _ => rfl)
    · have hsame := congrArg (Option.map (·.localName)) (h.others y hy)
      rwa [Option.map_map, Option.map_map] at hsame
  unfold Arena.childNamed Arena.findNamed
  rw [Arena.childrenOf_eq hi, Arena.childrenOf_eq hj, hchildren]
  simp only [hname]

/-- **A name has the same answer** where the same is stored for it. -/
theorem answer_eq_of_confined {pending pending' : List Pending}
    (hw : Reachable pending w.model) (hw' : Reachable pending' w'.model)
    (h : w.Confined id w') (hi : w.model.arena.get? id = some i)
    (hj : w'.model.arena.get? id = some j) (name : Symbol) (slot : Option Value) :
    w'.answer id j name slot = w.answer id i name slot := by
  obtain ⟨j', hj', hbare⟩ := h.forth hi
  rw [hj] at hj'
  cases hj'
  have hfields : j.fields = i.fields := Instance.eq_of_bare hbare (·.fields) fun _ => rfl
  have htype : j.type = i.type := Instance.eq_of_bare hbare (·.type) fun _ => rfl
  unfold World.answer World.attribute?
  rw [childNamed_eq_of_confined h hi, describe_eq_of_confined hw hw' h hi, hfields, htype, h.finds]

/-- **The same answer**: the same error, or a value that is the same one or compares as the same. -/
inductive SameAnswer : Except ModelError Value → Except ModelError Value → Prop
  | eq (r : Except ModelError Value) : SameAnswer r r
  | same {before after : Value} : after.same before = true → SameAnswer (.ok before) (.ok after)

/-- A value without floats is told apart from every other one. -/
theorem SameAnswer.eq_of_floats {before : Value} {r : Except ModelError Value}
    (h : SameAnswer (.ok before) r) (hfloats : before.floats = []) : r = .ok before := by
  cases h with
  | eq => rfl
  | same hsame => rw [Value.eq_of_same hsame hfloats]

/-- A value that was restored gives the same answer. -/
theorem sameAnswer_restored (w : World β σ) (id : InstanceId) (i : Instance β) (name : Symbol)
    (now before : Value) :
    SameAnswer (w.answer id i name (some before))
      (w.answer id i name (some (now.restored before))) := by
  unfold World.answer World.attribute?
  cases w.model.arena.childNamed id name.label with
  | some child => exact .eq _
  | none =>
    show SameAnswer (.ok before) (.ok (now.restored before))
    unfold Value.restored
    by_cases hsame : now.same before = true
    · rw [if_pos hsame]
      exact .same hsame
    · rw [if_neg hsame]
      exact .eq _

/-! ## Answers after a refused change -/

namespace RefusedChange

section Slots

variable {e : Engine β σ} (c : RefusedChange e id key v)

/-- What is stored for a name after a refused change. -/
def slotAfter (name : Symbol) : Option Value :=
  if c.before.properties.contains name then
    slotRestored (c.now.dynamic.get? name) (c.before.stored name)
  else if c.now.properties.contains name then none
  else c.now.dynamic.get? name

/-- **A name whose answer is not restored**, for an instance as it was when the change was asked
for. -/
inductive Leaks (i : Instance β) (name : Symbol) : Prop
  /-- A property without a stored value was written. -/
  | hidden (declared : c.before.properties.contains name = true)
      (unset : c.before.dynamic.get? name = none) (written : (c.now.dynamic.get? name).isSome)
  /-- An attribute was declared as a property. -/
  | erased (undeclared : c.before.properties.contains name = false)
      (declared : c.now.properties.contains name = true)
      (stored : (c.before.dynamic.get? name).isSome)
  /-- What is no property was written. -/
  | stray (undeclared : c.before.properties.contains name = false)
      (undeclaredStill : c.now.properties.contains name = false)
      (written : c.now.dynamic.get? name ≠ c.before.dynamic.get? name)
  /-- It was written before the change began, when the value was checked. -/
  | checking (written : c.before.dynamic.get? name ≠ i.dynamic.get? name)

/-- **What does not leak gives the same answer.** -/
theorem sameAnswer_slotAfter {i : Instance β} (hgrows : c.before.Grows c.now) (w : World β σ)
    {name : Symbol} (hleaks : ¬c.Leaks i name) :
    SameAnswer (w.answer id i name (i.dynamic.get? name))
      (w.answer id i name (c.slotAfter name)) := by
  have hchecked : c.before.dynamic.get? name = i.dynamic.get? name :=
    Classical.byContradiction fun hdiffers => hleaks (.checking hdiffers)
  -- Whether a value is put back depends on what was declared before the change, and since.
  rw [← hchecked]
  unfold slotAfter
  cases hbefore : c.before.properties.contains name with
  | true =>
    rw [if_pos rfl, Instance.stored]
    cases hslot : c.before.dynamic.get? name with
    | none =>
      cases hnow : c.now.dynamic.get? name with
      | none => exact .eq _
      | some now => exact absurd (.hidden hbefore hslot (by rw [hnow]; rfl)) hleaks
    | some before =>
      obtain ⟨now, hnow⟩ := Option.isSome_iff_exists.mp
        (hgrows.stored name hbefore (by rw [hslot]; rfl))
      rw [hnow, slotRestored_some]
      exact sameAnswer_restored w id i name now before
  | false =>
    rw [if_neg Bool.false_ne_true]
    cases hnow : c.now.properties.contains name with
    | true =>
      rw [if_pos rfl]
      cases hslot : c.before.dynamic.get? name with
      | none => exact .eq _
      | some before => exact absurd (.erased hbefore hnow (by rw [hslot]; rfl)) hleaks
    | false =>
      rw [if_neg Bool.false_ne_true]
      have hkept : c.now.dynamic.get? name = c.before.dynamic.get? name :=
        Classical.byContradiction fun hdiffers => hleaks (.stray hbefore hnow hdiffers)
      rw [hkept]
      exact .eq _

/-- What becomes of the instance when it is put back. -/
theorem PutBack.back_eq {w : World β σ} {back : Instance β} (h : c.PutBack w back) :
    back = c.now.putBack c.before := by
  obtain ⟨w', hbodiless, -, hthere, -⟩ := bodiless_putBack c.survives c.stillPlain
  obtain ⟨-, rfl⟩ := Prod.mk.inj (Option.some.inj ((h.bodiless e).symm.trans (hbodiless e)))
  exact Option.some.inj (h.there.symm.trans hthere)

/-- **A refused change comes to an end** whatever the type answers, if it leaves the properties as
they were put back. -/
theorem exists_final {w w' : World β σ} {back after : Instance β} {noticed : Except ModelError Bool}
    (hback : c.PutBack w back)
    (hnotice : (e.propsChanged id c.failed.model.changes.current false).outcome w =
      some (noticed, w'))
    (hthere : w'.model.arena.get? id = some after)
    (hplain : w'.Plain after.properties after.type)
    (htable : after.properties = c.before.properties) :
    ∃ result final changed, (e.setProperty id key v).outcome c.asked = some (result, final) ∧
      w'.Apart id final ∧ final.model.arena.get? id = some { after with changed } := by
  have hroll := Engine.outcome_rollBack_noticed c.accepted (hback.bodiless e) hnotice
  -- Only a change without any error is compared with what was before.
  cases hresult : c.accepted.bind fun _ => noticed.map fun _ => () with
  | error err =>
    rw [hresult] at hroll
    exact ⟨_, _, after.changed, c.outcome_setProperty (outcome_bind_error hroll),
      .changing id w' _, hthere⟩
  | ok _ =>
    rw [hresult] at hroll
    obtain ⟨u, changed, hcompare, hapart, hthere', -⟩ := bodiless_compare hthere hplain htable
    exact ⟨_, _, changed, c.outcome_setProperty ((outcome_bind_ok hroll).trans (hcompare e)),
      hapart.trans (.changing id u _), hthere'⟩

end Slots

variable {L : Language β σ} {allowance : Nat} {refusal : ModelError}
  (c : RefusedChange ((L.modest id refusal).engine allowance) id key v)

/-- What the check of the value leaves. -/
theorem enriched_checked : c.asked.Enriched id c.checked := by
  have hclearing : c.asked.Enriched id c.asked.clearing := .of_arena rfl rfl (fun _ _ => rfl) rfl
  have hcheck : c.asked.clearing.Enriched id c.checked :=
    ((L.respectful_modest allowance).validate (World.tolerant_enriched id).toNeutral
      id _ v).of_outcome c.admitted
  exact hclearing.trans hcheck

/-- What modest bodies leave of a change that they refuse. -/
theorem enriched_failed : c.checked.Enriched id c.failed := by
  have h : ((L.modest id refusal).engine allowance).Respectful (World.Enriched id) :=
    L.respectful_modest allowance
  have hR := World.tolerant_enriched (β := β) (σ := σ) id
  have hbegun : c.checked.Enriched id c.begun := (h.capture hR id).of_outcome c.captured
  have hfailed : c.begun.starting.Enriched id c.failed :=
    (h.writeAndAsk hR (h.modest_writeProperty key v)).of_outcome c.tried
  exact hbegun.trans ((hR.changing c.begun _).trans hfailed)

/-- **What is left when the type has been told** about a refused change: nothing but the properties
and attributes of the instance differs from when the change was asked for, and its properties have
no accessors. -/
theorem confined_told {w w' : World β σ} {back after : Instance β}
    {noticed : Except ModelError Bool} (hback : c.PutBack w back)
    (hnotice : (((L.modest id refusal).engine allowance).propsChanged id
      c.failed.model.changes.current false).outcome w = some (noticed, w'))
    (hthere : w'.model.arena.get? id = some after)
    (hproperties : after.properties = c.before.properties) :
    c.asked.Confined id w' ∧ w'.Plain after.properties after.type := by
  have hR := World.tolerant_enriched (β := β) (σ := σ) id
  have h : ((L.modest id refusal).engine allowance).Respectful (World.Enriched id) :=
    L.respectful_modest allowance
  -- Putting back and telling are taken together: both concern properties and attributes only.
  have hbare : back.bare = c.now.bare := by
    rw [hback.rest]
    rfl
  have hrestored : c.failed.Confined id w := .of_apart hback.apart c.survives hback.there hbare
  have htold : w.Confined id w' := ((h.propsChanged hR id _ false).of_outcome hnotice).confined
  have htype : after.type = c.now.type := by
    obtain ⟨after', hafter', hbare'⟩ := (hrestored.trans htold).forth c.survives
    obtain rfl := Option.some.inj (hthere.symm.trans hafter')
    exact Instance.eq_of_bare hbare' (·.type) fun _ => rfl
  refine ⟨c.enriched_checked.confined.trans
    (c.enriched_failed.confined.trans (hrestored.trans htold)), fun key hkey => ?_⟩
  rw [htype, htold.finds, htold.finds, hrestored.finds, hrestored.finds]
  exact c.stillPlain key (hproperties ▸ hkey)

/-- **The answers after a refused change** of an instance whose bodies are modest.  If the type
leaves the instance alone when it is told, every name is answered as before with what is then stored
for it, and the answer is the same unless the name leaks. -/
theorem attributes_restored {pending : List Pending} (hasked : Reachable pending c.asked.model) :
    ∃ w back, c.PutBack w back ∧ ∀ {noticed w' after},
      (((L.modest id refusal).engine allowance).propsChanged id c.failed.model.changes.current
        false).outcome w = some (noticed, w') →
      w'.model.arena.get? id = some after → after.properties = back.properties →
      after.dynamic = back.dynamic →
      ∃ i result final, c.asked.model.arena.get? id = some i ∧
        (perform (L.modest id refusal) (allowance + 1) (.setProperty id key v)).outcome c.asked =
          some (result, final) ∧
        ∀ name, ∃ r r' u u',
          (getAttr id name : Action β σ Value).outcome c.asked = some (r, u) ∧
          (getAttr id name : Action β σ Value).outcome final = some (r', u') ∧
          r' = c.asked.answer id i name (c.slotAfter name) ∧
          (¬c.Leaks i name → SameAnswer r r') := by
  obtain ⟨w, back, hback⟩ := c.exists_putBack
  refine ⟨w, back, hback, fun {noticed w' after} hnotice hthere htable hdynamic => ?_⟩
  obtain ⟨i, hi, -⟩ := c.declared
  have hproperties : after.properties = c.before.properties := htable.trans hback.table
  obtain ⟨hrun, hplain⟩ := c.confined_told hback hnotice hthere hproperties
  obtain ⟨result, final, changed, hout, hend, hlast⟩ :=
    c.exists_final hback hnotice hthere hplain hproperties
  refine ⟨i, result, final, hi, hout, fun name => ?_⟩
  have hfinal : Reachable pending final.model :=
    @Reachable.after_perform _ _ _ _ _ hasked (L.modest id refusal) (allowance + 1)
      (.setProperty id key v) result hout
  have hconfined : c.asked.Confined id final := hrun.trans (.of_apart hend hthere hlast rfl)
  have hslot : after.dynamic.get? name = c.slotAfter name := by
    rw [hdynamic, hback.back_eq]
    exact Instance.get?_putBack c.now c.before name
  obtain ⟨u, hr⟩ := exists_getAttr hi name
  obtain ⟨u', hr'⟩ := exists_getAttr hlast name
  refine ⟨_, _, u, u', hr, hr', ?_, fun hleaks => ?_⟩
  · rw [answer_eq_of_confined hasked hfinal hconfined hi hlast, ← hslot]
  · rw [answer_eq_of_confined hasked hfinal hconfined hi hlast]
    show SameAnswer _ (c.asked.answer id i name (after.dynamic.get? name))
    rw [hslot]
    exact c.sameAnswer_slotAfter (c.enriched_failed.grows c.there c.survives) c.asked hleaks

end RefusedChange

/-! ## A blind that cannot be raised -/

namespace Blind

/-- How far a blind is raised. -/
def height : PropertyDef := { key := ⟨"height"⟩, name := "Height", kind := .int }

/-- **The code of a blind.**  Its method refuses every change, and its product data declare the
height anew and write it. -/
def language : Language Unit Unit where
  method _ _ := .pure (.bool false)
  rule _ _ := .pure .accept
  evaluate _ blind _ := do
    let _ ← Program.call (Op.setupProperty blind { height with name := "Lift" })
    Program.call (Op.writeProperty blind height.key (.int 7))
  inspect _ _ := .pure ()
  transformed _ _ _ host := host

/-- Builds a blind that is raised a little. -/
def build : Body Unit Unit Unit := do
  let _ ← Program.call (Op.register
    { name := "Blind", methods := [{ name := Engine.propsChangedName, body := () }] })
  let blind ← Program.call (Op.instantiate "Blind" none "blind" [])
  Program.call (Op.setProductData blind { evaluate := some () })
  let _ ← Program.call (Op.setupProperty blind height)
  Program.call (Op.writeProperty blind height.key (.int 3))

/-- The error of an operation that is not for a blind. -/
def refusal : ModelError := .dispatch (.notCallable "operation")

/-- The engine that runs the code of a blind, which is modest about it. -/
abbrev engine : Engine Unit Unit := (language.modest ⟨0, 0⟩ refusal).engine 2

/-- **An attempt to raise a blind**, which is refused after the product data have declared and
written its height.  The type can be told about it. -/
theorem exists_refused :
    ∃ c : RefusedChange engine ⟨0, 0⟩ height.key (.int 5),
      Reachable [] c.asked.model ∧ c.checked = c.asked.clearing ∧
      c.before.properties.contains height.key = true ∧
      c.before.dynamic.get? height.key = some (.int 3) ∧
      c.now.dynamic.get? height.key = some (.int 7) ∧
      (∃ u, (getAttr ⟨0, 0⟩ height.key : Action Unit Unit Value).outcome c.asked =
        some (.ok (.int 3), u)) ∧
      ∃ r w noticed w',
        (engine.restore ⟨0, 0⟩ c.before.captured).outcome c.failed = some (r, w) ∧
        (engine.propsChanged ⟨0, 0⟩ c.failed.model.changes.current false).outcome w =
          some (noticed, w') := by
  have hrun : ((Body.exec language 3 build).outcome { host := () }).any (fun built =>
      (built.2.model.arena.get? ⟨0, 0⟩).any fun i =>
      (i.properties.get? height.key).any fun d =>
        d.state ≠ .disabled && d.kind.choiceMethod? = none &&
      ((getAttr ⟨0, 0⟩ height.key : Action Unit Unit Value).outcome built.2).any (fun told =>
        told.1.toOption.any (·.same (.int 3))) &&
      ((engine.validate ⟨0, 0⟩ d (.int 5)).outcome built.2.clearing).any fun checked =>
        checked.1.isOk &&
      (checked.2.model.arena.get? ⟨0, 0⟩).any fun before =>
        checked.2.Plain before.properties before.type && before.properties.contains height.key &&
        (before.dynamic.get? height.key).any (·.same (.int 3)) &&
      ((engine.capture ⟨0, 0⟩).outcome checked.2).any fun begun =>
      ((engine.writeAndAsk ⟨0, 0⟩ height.key (.int 5)).outcome begun.2.starting).any fun failed =>
        failed.1.isOk && !failed.1.toOption.getD true &&
      (failed.2.model.arena.get? ⟨0, 0⟩).any fun now =>
        failed.2.Plain before.properties now.type &&
        (now.dynamic.get? height.key).any (·.same (.int 7)) &&
      ((engine.restore ⟨0, 0⟩ before.captured).outcome failed.2).any fun back =>
      ((engine.propsChanged ⟨0, 0⟩ failed.2.model.changes.current false).outcome
        back.2).isSome) = true := by
    decide +kernel
  simp only [Option.any_eq_true, Bool.and_eq_true, decide_eq_true_eq, Prod.exists,
    Option.isSome_iff_exists] at hrun
  obtain ⟨_, asked, hbuilt, i, hi, d, hd,
    ⟨⟨henabled, hchoice⟩, ⟨told, u', hread, ⟨three', htold, hthree'⟩⟩⟩, valid, checked, hvalid,
    hok, before, hbefore, ⟨⟨hplain, hdeclared⟩, ⟨three, hslot, hthree⟩⟩, captured, begun, hcapture,
    accepted, failed, htry, ⟨hanswered, hrefused⟩, now, hnow,
    ⟨hstill, ⟨seven, hraised, hseven⟩⟩, r, w, hrestore, noticed, w', hnotice⟩ := hrun
  obtain ⟨u, hbodiless, -⟩ := bodiless_capture hbefore hplain
  obtain ⟨rfl, rfl⟩ := Prod.mk.inj (Option.some.inj (hcapture.symm.trans (hbodiless _)))
  obtain rfl := Value.eq_of_same hthree rfl
  obtain rfl := Value.eq_of_same hseven rfl
  obtain rfl := Value.eq_of_same hthree' rfl
  obtain _ | told := told
  · cases htold
  obtain rfl := Option.some.inj htold
  obtain _ | _ := valid
  · cases hok
  obtain _ | _ | _ := accepted
  · cases hanswered
  · exact ⟨{
      asked, checked, begun, failed, definition := d, before, now, accepted := .ok false
      declared := ⟨i, hi, hd⟩, enabled := henabled, admitted := hvalid, there := hbefore
      plain := hplain, captured := hcapture, tried := htry, refused := by simp, survives := hnow
      stillPlain := hstill },
      (Reachable.empty rfl rfl).after_exec hbuilt, Engine.eq_clearing_of_valid hchoice hvalid,
      hdeclared, hslot, hraised, ⟨u', hread⟩, r, w, noticed, w', hrestore, hnotice⟩
  · cases hrefused

end Blind

/-- A blind refuses to be raised, after its height was declared anew and written.  Afterwards the
height is answered as before. -/
theorem RefusedChange.attributes_restored_blind :
    ∃ c : RefusedChange ((Blind.language.modest ⟨0, 0⟩ Blind.refusal).engine 2) ⟨0, 0⟩
        Blind.height.key (.int 5),
      Reachable [] c.asked.model ∧ c.now.dynamic.get? Blind.height.key = some (.int 7) ∧
      ∃ result final r u u',
        (perform (Blind.language.modest ⟨0, 0⟩ Blind.refusal) 3
          (.setProperty ⟨0, 0⟩ Blind.height.key (.int 5))).outcome c.asked =
            some (result, final) ∧
        (getAttr ⟨0, 0⟩ Blind.height.key : Action Unit Unit Value).outcome c.asked =
          some (r, u) ∧ r = .ok (.int 3) ∧
        (getAttr ⟨0, 0⟩ Blind.height.key : Action Unit Unit Value).outcome final =
          some (r, u') := by
  obtain ⟨c, hasked, hchecked, hdeclared, hbefore, hraised, ⟨u₁, hread⟩, r, w₁, noticed, w',
    hrestore, hnotice⟩ := Blind.exists_refused
  obtain ⟨w, back, hback, hend⟩ := RefusedChange.attributes_restored c hasked
  obtain ⟨-, rfl⟩ := Prod.mk.inj (Option.some.inj ((hback.bodiless _).symm.trans hrestore))
  have hthere : w'.model.arena.get? ⟨0, 0⟩ = some back := by
    rw [Engine.model_of_propsChanged (fun _ _ => rfl) hnotice]
    exact hback.there
  obtain ⟨i, result, final, hi, hout, hnames⟩ := hend hnotice hthere rfl rfl
  obtain ⟨answer, answer', u, u', hr, hr', -, hsame⟩ := hnames Blind.height.key
  have hkept : ¬c.Leaks i Blind.height.key := by
    rintro (⟨-, hunset, -⟩ | ⟨hundeclared, -, -⟩ | ⟨hundeclared, -, -⟩ | hdiffers)
    · rw [hbefore] at hunset
      cases hunset
    · rw [hdeclared] at hundeclared
      cases hundeclared
    · rw [hdeclared] at hundeclared
      cases hundeclared
    · have hthere := c.there
      rw [hchecked] at hthere
      exact hdiffers (congrArg (·.dynamic.get? Blind.height.key)
        (Option.some.inj (hthere.symm.trans hi)))
  obtain ⟨rfl, rfl⟩ := Prod.mk.inj (Option.some.inj (hr.symm.trans hread))
  have hthree : answer' = .ok (.int 3) := (hsame hkept).eq_of_floats rfl
  exact ⟨c, hasked, hraised, result, final, _, u, u', hout, hr, rfl, hthree ▸ hr'⟩

end ProductModel
