import ProductModel.Proofs.AdmittedAlike
import ProductModel.Proofs.RefusedChange
import ProductModel.Proofs.Showroom.Routines

/-!
# Setting a property of a cabinet

A cabinet is tidy if its doors go with its width and all of its shelves are as wide as it is.  A
tidy cabinet stays tidy when any value is set for any of its properties (`Tidy.exists_setProperty`):

* A value that does not fit its definition changes nothing.
* A value that does is written, and the catalog gives a new width to the shelves.
* If doors and width do not go together then, the properties of the cabinet are put back.  The
  shelves are not among them, but the cabinet is told and gives them its width again.
-/

namespace ProductModel

open ProductModel.Action

/-- What is the same for same values is the same for a restored value. -/
theorem Value.restored_congr {α : Sort _} (f : Value → α)
    (hf : ∀ {u v : Value}, u.same v = true → f u = f v) (now before : Value) :
    f (now.restored before) = f before := by
  unfold restored
  split
  · rename_i hsame
    exact hf hsame
  · rfl

namespace Engine

variable {β σ : Type} {e : Engine β σ} {w w' : World β σ} {id : InstanceId} {i : Instance β}
  {key : Symbol} {v : Value}

/-- **A checked value** is admitted or refused without a trace, unless its choices are computed. -/
theorem outcome_validate {d : PropertyDef} (hvalidates : w.config.validateProperties = true)
    (hchoice : d.kind.choiceMethod? = none) (id : InstanceId) (v : Value) :
    (e.validate id d v).outcome w =
      some ((d.validate v).mapError fun message =>
        .property (.invalidValue d.key.label message), w) := by
  have hconfig : (config : Action β σ Config).outcome w = some (.ok w.config, w) := rfl
  unfold validate
  rw [outcome_bind_ok hconfig, if_pos hvalidates]
  unfold checkValue refusal
  cases d.validate v with
  | error message => rfl
  | ok _ => simp only [hchoice]; rfl

/-- A value that is not admitted ends the change before it starts. -/
theorem outcome_setProperty_of_error {d : PropertyDef} {err : ModelError}
    (hi : w.model.arena.get? id = some i) (hd : i.properties.get? key = some d)
    (henabled : d.state ≠ .disabled)
    (hinvalid : (e.validate id d v).outcome w.clearing = some (.error err, w')) :
    (e.setProperty id key v).outcome w = some (.error err, w') := by
  rw [outcome_setProperty_eq hi hd henabled]
  exact outcome_bind_error hinvalid

/-- What a change comes to that is accepted. -/
theorem outcome_applyChange_of_accepted {before : PropertyCapture}
    (htry : (e.writeAndAsk id key v).outcome w = some (.ok true, w')) :
    (e.applyChange id key v before).outcome w = (e.compare id before).outcome w' := by
  have hattempt : (attempt (e.writeAndAsk id key v)).outcome w = some (.ok (.ok true), w') := by
    rw [outcome_attempt, htry]
    rfl
  unfold applyChange
  rw [outcome_bind_ok hattempt]
  rfl

end Engine

namespace Showroom

variable {σ : Type} {w : World Routine σ} {room : Room} {cabinet i : Instance Routine}
  {shelves : List InstanceId} (allowance : Nat)

/-- Whether doors and a width go together does not depend on which of the same values they are. -/
theorem fits_restored (doors doors' width width' : Value) :
    fits (doors'.restored doors) (width'.restored width) = fits doors width := by
  have htruthy := Value.restored_congr Value.isTruthy Value.isTruthy_of_same doors' doors
  have hwide := Value.restored_congr (fun v => maxDoorWidth < v.toFloat?.getD 0.0)
    (fun h => propext (Value.lt_toFloat_of_same h _ _)) width' width
  unfold fits
  rw [htruthy]
  simp only [hwide]

/-- **A tidy cabinet**: it is idle, it has a width that its doors go with, and the shelves are as
wide as it is. -/
structure Room.Tidy (room : Room) (cabinet : Instance Routine) (w : World Routine σ) : Prop where
  furnished : room.Furnished cabinet cabinet.children w
  idle : cabinet.busy = 0
  solid : (cabinet.stored width).isVoid = false
  fits : Showroom.fits (cabinet.stored doors) (cabinet.stored width) = true
  even : HaveWidth w cabinet.children (cabinet.stored width)

/-- The method of a cabinet that is told about changes. -/
def changedMethod : Method Routine := { name := ⟨"propsChanged"⟩, body := .cabinetChanged }

namespace Room.Furnished

/-! ## The type is told -/

theorem finds_propsChanged (h : room.Furnished cabinet shelves w) :
    w.finds cabinet.type Engine.propsChangedName = some (cabinetId, changedMethod) := by
  rw [finds_eq h.types h.truthful, h.isCabinet.type]
  rfl

/-- **Asking the cabinet** about a change. -/
theorem exists_propsChanged_asking (h : room.Furnished cabinet shelves w) (keys : List Symbol) :
    ∃ w', ((language.engine (allowance + 1)).propsChanged room.cabinet keys true).outcome w =
        some (.ok (fits (cabinet.stored doors) (cabinet.stored width)), w') ∧ w.Agrees w' := by
  have hagrees := World.Agrees.lookingUp w cabinet.type Engine.propsChangedName
  obtain ⟨w', hrun, hagrees'⟩ := (h.agrees hagrees).exists_cabinetChanged_asking allowance
    (.list (keys.map .symbol))
  have hinvoke : ((language.engine (allowance + 1)).invoke changedMethod (some room.cabinet)
      [.list (keys.map .symbol), .int 1]).outcome _ = _ := (Engine.outcome_invoke rfl _).trans hrun
  refine ⟨w', ?_, hagrees.trans hagrees'⟩
  unfold Engine.propsChanged
  rw [outcome_bind_ok (outcome_typeOf h.there), outcome_bind_ok (outcome_findMethod _ _),
    h.finds_propsChanged]
  exact outcome_bind_ok hinvoke

/-- **Telling the cabinet** that a change was taken back. -/
theorem exists_propsChanged_telling (h : room.Furnished cabinet shelves w)
    (hchildren : cabinet.children = shelves) (keys : List Symbol) :
    ∃ w', ((language.engine (allowance + 1)).propsChanged room.cabinet keys false).outcome w =
        some (.ok true, w') ∧
      room.Furnished cabinet shelves w' ∧ HaveWidth w' shelves (cabinet.stored width) := by
  have hagrees := World.Agrees.lookingUp w cabinet.type Engine.propsChangedName
  obtain ⟨w', hrun, h', hwidths⟩ := (h.agrees hagrees).exists_cabinetChanged_telling allowance
    hchildren (.list (keys.map .symbol))
  have hinvoke : ((language.engine (allowance + 1)).invoke changedMethod (some room.cabinet)
      [.list (keys.map .symbol), .int 0]).outcome _ = _ := (Engine.outcome_invoke rfl _).trans hrun
  refine ⟨w', ?_, h', hwidths⟩
  unfold Engine.propsChanged
  rw [outcome_bind_ok (outcome_typeOf h.there), outcome_bind_ok (outcome_findMethod _ _),
    h.finds_propsChanged]
  exact outcome_bind_ok hinvoke

/-- **The catalog is told** about a value that was written. -/
theorem exists_propagate (h : room.Furnished cabinet shelves w)
    (hchildren : cabinet.children = shelves) (key : Symbol)
    (hwidths : key ≠ width → HaveWidth w shelves (cabinet.stored width)) :
    ∃ w', ((language.engine (allowance + 1)).propagate room.cabinet key).outcome w =
        some (.ok (), w') ∧
      room.Furnished cabinet shelves w' ∧ HaveWidth w' shelves (cabinet.stored width) := by
  obtain ⟨w', hrun, h'⟩ := h.exists_spreadWidth allowance hchildren key hwidths
  have hask : (Action.ask (·.productDataOf room.cabinet) : Action Routine σ _).outcome w =
      some (.ok (some (Showroom.catalog id)), w) := by
    show (Action.ofExcept (w.model.productDataOf room.cabinet) : Action Routine σ _).outcome w = _
    rw [h.productDataOf]
    rfl
  refine ⟨w', ?_, h'⟩
  unfold Engine.propagate
  rw [outcome_bind_ok hask]
  exact hrun

end Room.Furnished

namespace Room.Tidy

/-! ## What does not matter -/

/-- **A change of the cabinet** beside its children and its values. -/
theorem turn {after : Instance Routine} {w' : World Routine σ} (h : room.Tidy cabinet w)
    (hturn : w.Turns room.cabinet after w') (hcabinet : room.IsCabinet after)
    (hchildren : after.children = cabinet.children) (hidle : after.busy = cabinet.busy)
    (hstored : ∀ key, after.stored key = cabinet.stored key) : room.Tidy after w' where
  furnished := hchildren ▸ h.furnished.turn_cabinet hturn hcabinet
  idle := hidle.trans h.idle
  solid := by rw [hstored, h.solid]
  fits := by rw [hstored, hstored, h.fits]
  even := by
    rw [hchildren, hstored]
    exact h.even.turn hturn fun hmem => absurd rfl (h.furnished.cabinet_ne_shelf hmem)

/-- **A change of a shelf** beside its values. -/
theorem turn_shelf {s : InstanceId} {j : Instance Routine} {w' : World Routine σ}
    (h : room.Tidy cabinet w) (hs : s ∈ cabinet.children) (hi : w.model.arena.get? s = some i)
    (hturn : w.Turns s j w') (hshelf : room.IsShelf j)
    (hstored : ∀ key, j.stored key = i.stored key) : room.Tidy cabinet w' where
  furnished := h.furnished.turn_shelf hs hturn hshelf
  idle := h.idle
  solid := h.solid
  fits := h.fits
  even := by
    intro t ht k hk
    by_cases hts : t = s
    · subst hts
      rw [hturn.there] at hk
      cases hk
      rw [hstored]
      exact h.even t ht i hi
    · rw [hturn.apart.others t hts] at hk
      exact h.even t ht k hk

/-- Remembered lookups do not matter. -/
theorem agrees {w' : World Routine σ} (h : room.Tidy cabinet w) (hagrees : w.Agrees w') :
    room.Tidy cabinet w' :=
  h.turn ((World.Turns.refl h.furnished.there).agrees hagrees) h.furnished.isCabinet rfl rfl
    fun _ => rfl

/-- What is recorded of changes does not matter. -/
theorem changing (h : room.Tidy cabinet w) (changes : ChangeHistory) :
    room.Tidy cabinet { w with model := { w.model with changes } } :=
  h.turn ⟨.changing _ w changes, h.furnished.there, .changing w changes⟩ h.furnished.isCabinet rfl
    rfl fun _ => rfl

/-! ## A change is tried -/

/-- The cabinet for which another value is stored. -/
theorem isCabinet_storing (h : room.IsCabinet cabinet) (key : Symbol) (v : Value) :
    room.IsCabinet (cabinet.storing key v) :=
  ⟨h.type, h.father, h.state, h.program, h.properties⟩

/-- **A value is written, passed on, and asked about.**  The shelves are as wide as the cabinet
then, whatever the answer is. -/
theorem exists_writeAndAsk (h : room.Tidy cabinet w) {key : Symbol}
    (hkey : cabinetTable.contains key = true) (v : Value) :
    ∃ w', ((language.engine (allowance + 1)).writeAndAsk room.cabinet key v).outcome w =
        some (.ok (Showroom.fits ((cabinet.storing key v).stored doors)
          ((cabinet.storing key v).stored width)), w') ∧
      room.Furnished (cabinet.storing key v) cabinet.children w' ∧
      HaveWidth w' cabinet.children ((cabinet.storing key v).stored width) := by
  have hset : w.finds cabinet.type (Accessor.setter key) = none := by
    rw [finds_eq h.furnished.types h.furnished.truthful, h.furnished.isCabinet.type]
    exact (accessorless_cabinet key hkey).2
  obtain ⟨w₁, hwrite, hturn⟩ :=
    (language.engine (allowance + 1)).exists_writeProperty v h.furnished.there hset
  have h₁ := h.furnished.turn_cabinet hturn
    (isCabinet_storing h.furnished.isCabinet key v)
  -- A write of another property leaves the widths as they were.
  have hwidths : key ≠ width →
      HaveWidth w₁ cabinet.children ((cabinet.storing key v).stored width) := by
    intro hne
    rw [Instance.stored_storing_of_ne _ (Ne.symm hne)]
    exact h.even.turn hturn fun hmem => absurd rfl (h.furnished.cabinet_ne_shelf hmem)
  obtain ⟨w₂, hpropagate, h₂, hwidths₂⟩ := h₁.exists_propagate allowance rfl key hwidths
  have hkeys : (currentKeys : Action Routine σ (List Symbol)).outcome w₂ =
      some (.ok w₂.model.changes.current, w₂) := rfl
  obtain ⟨w₃, hasked, hagrees⟩ := h₂.exists_propsChanged_asking allowance w₂.model.changes.current
  refine ⟨w₃, ?_, h₂.agrees hagrees, hwidths₂.agrees hagrees⟩
  unfold Engine.writeAndAsk
  rw [outcome_bind_ok hwrite, outcome_bind_ok hpropagate, outcome_bind_ok hkeys]
  exact hasked

/-- **The properties of the cabinet are put back**, and with them the widths of the shelves. -/
theorem exists_rollBack {now before : Instance Routine}
    (h : room.Furnished now shelves w) (hchildren : now.children = shelves)
    (hbefore : room.IsCabinet before) :
    ∃ w', ((language.engine (allowance + 1)).rollBack room.cabinet before.captured
        (.ok false)).outcome w = some (.ok (), w') ∧
      room.Furnished (now.putBack before) shelves w' ∧
      HaveWidth w' shelves ((now.putBack before).stored width) := by
  have hplain : w.Plain before.properties now.type := by
    rw [hbefore.properties, h.isCabinet.type]
    exact plain_cabinet h.types h.truthful
  obtain ⟨w₁, hrestore, hapart, hthere, hkeeps⟩ := bodiless_putBack h.there hplain
  have h₁ : room.Furnished (now.putBack before) shelves w₁ :=
    h.turn_cabinet ⟨hapart, hthere, hkeeps⟩ ⟨h.isCabinet.type, h.isCabinet.father,
      h.isCabinet.state, h.isCabinet.program, hbefore.properties⟩
  obtain ⟨w₂, htold, h₂, hwidths⟩ :=
    h₁.exists_propsChanged_telling allowance hchildren w.model.changes.current
  exact ⟨w₂, Engine.outcome_rollBack (hrestore _) htold, h₂, hwidths⟩

/-- **The comparison at the end** marks a changed cabinet and leaves it tidy. -/
theorem exists_compare {after before : Instance Routine} (h : room.Tidy after w)
    (hbefore : room.IsCabinet before) :
    ∃ r w' changed, ((language.engine (allowance + 1)).compare room.cabinet
        before.captured).outcome w = some (.ok r, w') ∧ room.Tidy { after with changed } w' := by
  obtain ⟨w', changed, hcompare, hapart, hthere, hkeeps⟩ := bodiless_compare h.furnished.there
    h.furnished.plain (h.furnished.isCabinet.properties.trans hbefore.properties.symm)
  have hcabinet := h.furnished.isCabinet
  exact ⟨_, w', changed, hcompare _, h.turn ⟨hapart, hthere, hkeeps⟩ ⟨hcabinet.type,
    hcabinet.father, hcabinet.state, hcabinet.program, hcabinet.properties⟩ rfl rfl fun _ => rfl⟩

/-- **A change that is tried** leaves the cabinet tidy, whether or not it is accepted. -/
theorem exists_applyChange (h : room.Tidy cabinet w) {key : Symbol}
    (hkey : cabinetTable.contains key = true) {v : Value}
    (hsolid : key = width → v.isVoid = false) :
    ∃ r w' after, ((language.engine (allowance + 1)).applyChange room.cabinet key v
        cabinet.captured).outcome w = some (.ok r, w') ∧
      room.Tidy after w' ∧ after.children = cabinet.children := by
  have hcabinet := h.furnished.isCabinet
  have hthere : ((cabinet.storing key v).stored width).isVoid = false := by
    by_cases hwidth : key = width
    · rw [hwidth, Instance.stored_storing, hsolid hwidth]
    · rw [Instance.stored_storing_of_ne _ (Ne.symm hwidth), h.solid]
  obtain ⟨w₁, htried, h₁, hwidths⟩ := h.exists_writeAndAsk allowance hkey v
  cases haccepted : Showroom.fits ((cabinet.storing key v).stored doors)
      ((cabinet.storing key v).stored width) with
  | true =>
    rw [haccepted] at htried
    have htidy : room.Tidy (cabinet.storing key v) w₁ :=
      ⟨h₁, h.idle, hthere, haccepted, hwidths⟩
    obtain ⟨r, w₂, changed, hcompare, h₂⟩ := htidy.exists_compare allowance hcabinet
    exact ⟨r, w₂, _, (Engine.outcome_applyChange_of_accepted htried).trans hcompare, h₂, rfl⟩
  | false =>
    rw [haccepted] at htried
    obtain ⟨w₂, hroll, h₂, hwidths₂⟩ := exists_rollBack allowance h₁ rfl hcabinet
    have hstored : ∀ k, cabinetTable.contains k = true →
        ((cabinet.storing key v).putBack cabinet).stored k =
          ((cabinet.storing key v).stored k).restored (cabinet.stored k) := by
      intro k hk
      have hmem : k ∈ cabinet.properties.keys := by
        rw [hcabinet.properties]
        exact PropertyTable.mem_keys.mpr hk
      rw [Instance.stored_putBack hmem, hcabinet.propertyValue hk]
    have htidy : room.Tidy ((cabinet.storing key v).putBack cabinet) w₂ := by
      refine ⟨h₂, h.idle, ?_, ?_, hwidths₂⟩
      · rw [hstored width rfl, Value.restored_congr Value.isVoid Value.isVoid_of_same]
        exact h.solid
      · rw [hstored doors rfl, hstored width rfl, fits_restored]
        exact h.fits
    obtain ⟨r, w₃, changed, hcompare, h₃⟩ := htidy.exists_compare allowance hcabinet
    refine ⟨r, w₃, _, ?_, h₃, rfl⟩
    rw [Engine.outcome_applyChange htried (by simp), outcome_bind_ok hroll]
    exact hcompare

/-! ## The whole procedure -/

/-- **Any value may be set for any property of a tidy cabinet**: it has an outcome, and the cabinet
is tidy then. -/
theorem exists_setProperty (h : room.Tidy cabinet w) (key : Symbol) (v : Value) :
    ∃ r w' after, (perform language (allowance + 2) (.setProperty room.cabinet key v)).outcome w =
        some (r, w') ∧
      room.Tidy after w' ∧ after.children = cabinet.children := by
  show ∃ r w' after, ((language.engine (allowance + 1)).setProperty room.cabinet key v).outcome w =
    some (r, w') ∧ _
  have hcabinet := h.furnished.isCabinet
  have hclearing : room.Tidy cabinet w.clearing := h.changing _
  cases hd : cabinet.properties.get? key with
  | none =>
    refine ⟨.ok false, w.clearing, cabinet, ?_, hclearing, rfl⟩
    have hclear : (modifyChanges (·.clearLast) : Action Routine σ Unit).outcome w =
        some (.ok (), w.clearing) := rfl
    unfold Engine.setProperty
    rw [outcome_bind_ok hclear, outcome_bind_ok (outcome_find hclearing.furnished.there), hd]
    rfl
  | some d =>
    have hkey : cabinetTable.contains key = true := by
      rw [PropertyTable.contains_eq_isSome, ← hcabinet.properties, hd]
      rfl
    obtain ⟨henabled, hlisted, hwidth⟩ := cabinetTable_enabled (hcabinet.properties ▸ hd)
    have hdisabled : d.state ≠ .disabled := by
      rw [henabled]
      decide
    have hvalidate := Engine.outcome_validate (e := language.engine (allowance + 1))
      hclearing.furnished.validates hlisted room.cabinet v
    cases hv : d.validate v with
    | error message =>
      rw [hv] at hvalidate
      exact ⟨_, w.clearing, cabinet,
        Engine.outcome_setProperty_of_error h.furnished.there hd hdisabled hvalidate,
        hclearing, rfl⟩
    | ok _ =>
      rw [hv] at hvalidate
      obtain ⟨w₁, hcapture, hagrees⟩ :=
        bodiless_capture hclearing.furnished.there hclearing.furnished.plain
      obtain ⟨r, w₂, after, happly, h₂, hchildren⟩ :=
        ((hclearing.agrees hagrees).changing _).exists_applyChange allowance hkey (v := v) <| by
          intro hkw
          rw [hwidth hkw] at hv
          exact isVoid_of_validate hv
      refine ⟨.ok r, w₂.finishing, after, ?_, h₂.changing _, hchildren⟩
      rw [Engine.outcome_setProperty h.furnished.there hd hdisabled hvalidate]
      exact Engine.outcome_changeValidated (hcapture _) happly

end Room.Tidy

end Showroom

end ProductModel
