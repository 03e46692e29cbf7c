import ProductModel.Proofs.Run.Permissive
import ProductModel.Proofs.Run.Unobtrusive

/-!
# Notes on changes of properties

The model tells which keys a change of a property has written (`ChangeHistory`).  To say whether it
is right, the writes have to be known without it.  So a run is noted: which calls that set a
property are at work, which writes each of them has made itself, and what every program saw of the
record of changes whenever it had control.

The notes are kept beside the state of the language (`Program.chronicled`).  Two operations make
notes of their own, those that write a property and set one, and are otherwise the operations of the
model; so noting changes nothing (`Body.outcome_notedRun`).

## Design

A call that sets a property first checks the value and captures the properties.  All that runs in
that time are getters and methods that compute choices.  The call makes its first write after that,
so it has no list of writes before (`ChangeAtWork.writes`); and `ChangeWatch.strayed` tells whether
a property was written in such a time, be it by something that was run in turn.
-/

namespace ProductModel

open ProductModel.Action

variable {β σ α : Type}

/-! ## Notes -/

/-- **A write of a property**: its key, and whether there was an instance to write it to. -/
structure PropertyWrite where
  key : Symbol
  taken : Bool
  deriving DecidableEq, Repr

namespace PropertyWrite

/-- **The keys that were written**, in the order of their first writes. -/
def written (writes : List PropertyWrite) : List Symbol :=
  ((writes.filter (·.taken)).map (·.key)).eraseDups

/-- **The keys that were passed**, whether or not there was an instance to write them to. -/
def passed (writes : List PropertyWrite) : List Symbol := (writes.map (·.key)).eraseDups

end PropertyWrite

/-- **A change at work**: the key that is set, and the writes of the call itself, once it has come
to writing. -/
structure ChangeAtWork where
  key : Symbol
  writes : Option (List PropertyWrite) := none
  deriving DecidableEq, Repr

/-- **What a program sees of changes** at a moment at which it has control. -/
structure ChangeSight where
  changes : ChangeHistory
  /-- the changes at work, the innermost first -/
  work : List ChangeAtWork
  /-- the writes of the outermost change that ended last; it has none if it did not come to
  writing -/
  last : List PropertyWrite
  deriving DecidableEq, Repr

/-- **A change that has ended**, in whatever way. -/
structure EndedChange where
  change : ChangeAtWork
  /-- the changes around it -/
  outer : List ChangeAtWork
  before : ChangeHistory
  after : ChangeHistory
  deriving DecidableEq, Repr

/-- **The notes on a run.** -/
structure ChangeWatch where
  work : List ChangeAtWork := []
  last : List PropertyWrite := []
  /-- whether a property was written while a change at work had not come to writing -/
  strayed : Bool := false
  sights : List ChangeSight := []
  ended : List EndedChange := []
  deriving DecidableEq, Repr

/-- Further writes of a change that has come to writing. -/
def ChangeAtWork.adding (a : ChangeAtWork) (more : List PropertyWrite) : ChangeAtWork :=
  { a with writes := a.writes.map (· ++ more) }

namespace ChangeWatch

variable (t : ChangeWatch)

/-- Notes what is in view. -/
def see (c : ChangeHistory) : ChangeWatch :=
  { t with sights := t.sights ++ [⟨c, t.work, t.last⟩] }

/-- Notes that a change begins. -/
def begin (key : Symbol) : ChangeWatch := { t with work := ⟨key, none⟩ :: t.work }

/-- Notes that the innermost change comes to writing. -/
def start : ChangeWatch :=
  { t with work := t.work.modifyHead fun a => { a with writes := some [] } }

/-- Notes a write. -/
def write (x : PropertyWrite) : ChangeWatch :=
  { t with
    work := t.work.modifyHead (·.adding [x])
    strayed := t.strayed || (x.taken && t.work.any (·.writes.isNone)) }

/-- Notes that the innermost change ends. -/
def finish (before after : ChangeHistory) : ChangeWatch :=
  match t.work with
  | [] => t
  | a :: outer =>
    { t with
      work := outer
      last := if outer.isEmpty then a.writes.getD [] else t.last
      ended := t.ended ++ [⟨a, outer, before, after⟩] }

end ChangeWatch

/-! ## Operations that are noted -/

/-- Makes a note. -/
def Action.note (f : Model β → ChangeWatch → ChangeWatch) : Action β (σ × ChangeWatch) Unit :=
  modify fun w => { w with host := (w.host.1, f w.model w.host.2) }

namespace Engine

variable (e : Engine β (σ × ChangeWatch))

/-- Writes the value of a property and notes that. -/
def writeNoted (id : InstanceId) (key : Symbol) (v : Value) : Action β (σ × ChangeWatch) Unit := do
  Action.note fun m t => t.write ⟨key, m.arena.contains id⟩
  e.writeProperty id key v

/-- Writes back the values that differ from captured ones, and notes the writes. -/
def restoreValuesNoted (id : InstanceId) :
    List (Symbol × Value) → Action β (σ × ChangeWatch) Unit
  | [] => return
  | (key, v) :: rest => do
    let now ← e.getProperty id key
    if !now.same v then e.writeNoted id key v
    restoreValuesNoted id rest

/-- Puts properties back as they were captured, and notes the writes. -/
def restoreNoted (id : InstanceId) (before : PropertyCapture) :
    Action β (σ × ChangeWatch) Unit := do
  Action.update id fun i =>
    let added := i.properties.keys.filter (!before.table.contains ·)
    { i with
      dynamic := added.foldl Association.erase i.dynamic
      properties := before.table }
  e.restoreValuesNoted id before.values

/-- Passes a change on and asks the type. -/
def propagateAndAsk (id : InstanceId) (key : Symbol) : Action β (σ × ChangeWatch) Bool := do
  e.propagate id key
  e.propsChanged id (← Action.currentKeys) true

/-- Puts properties back after a change that was not accepted and tells the type, and notes the
writes. -/
def rollBackNoted (id : InstanceId) (before : PropertyCapture)
    (accepted : Except ModelError Bool) : Action β (σ × ChangeWatch) Unit := do
  let keys ← Action.currentKeys
  e.restoreNoted id before
  let noticed ← Action.attempt (e.propsChanged id keys false)
  let _ ← Action.ofExcept accepted
  let _ ← Action.ofExcept noticed

/-- What is left of a change after it was carried out or not. -/
def settleNoted (id : InstanceId) (before : PropertyCapture) :
    Except ModelError Bool → Action β (σ × ChangeWatch) Bool
  | .ok true => e.compare id before
  | accepted => do
    e.rollBackNoted id before accepted
    e.compare id before

/-- Carries out a checked change and notes the writes. -/
def applyChangeNoted (id : InstanceId) (key : Symbol) (v : Value) (before : PropertyCapture) :
    Action β (σ × ChangeWatch) Bool := do
  let accepted ← Action.attempt do
    e.writeNoted id key v
    e.propagateAndAsk id key
  e.settleNoted id before accepted

/-- What is left of setting a property after the value was found to be valid, with notes. -/
def changeNoted (id : InstanceId) (key : Symbol) (v : Value) :
    Action β (σ × ChangeWatch) Bool := do
  let before ← e.capture id
  Action.modifyChanges (·.start)
  Action.note fun _ t => t.start
  let result ← Action.attempt (e.applyChangeNoted id key v before)
  Action.modifyChanges (·.finish)
  Action.ofExcept result

/-- What is done with a property that is to be set, if it is declared. -/
def setDeclaredNoted (id : InstanceId) (key : Symbol) (v : Value) :
    Option PropertyDef → Action β (σ × ChangeWatch) Bool
  | none => return false
  | some d => do
    if d.state = .disabled then
      throw (.property (.disabled key.label))
    if (← Action.config).validateProperties then
      e.checkValue id d v
    e.changeNoted id key v

/-- **Sets the value of a property** and notes when that begins and ends, and its writes. -/
def setPropertyNoted (id : InstanceId) (key : Symbol) (v : Value) :
    Action β (σ × ChangeWatch) Bool := do
  let before := (← Action.model).changes
  Action.note fun _ t => t.begin key
  let result ← Action.attempt do
    Action.modifyChanges (·.clearLast)
    e.setDeclaredNoted id key v ((← Action.find id).properties.get? key)
  Action.note fun m t => t.finish before m.changes
  Action.ofExcept result

/-- **What each operation does**, with notes on changes. -/
def stepNoted : (op : Op β) → Action β (σ × ChangeWatch) op.Answer
  | .writeProperty id key v => e.writeNoted id key v
  | .setProperty id key v => e.setPropertyNoted id key v
  | op => e.step op

theorem stepNoted_of_not_isRecorded {op : Op β} (hop : op.isRecorded = false) :
    e.stepNoted op = e.step op := by
  cases op with
  | writeProperty | setProperty => cases hop
  | _ => rfl

end Engine

/-- What bodies note when they have control. -/
def ChangeWatch.noting (m : Model β) (t : ChangeWatch) : ChangeWatch := t.see m.changes

/-- **Performs an operation** with notes on changes. -/
def performNoted (L : Language β σ) : Nat → (op : Op β) → Action β (σ × ChangeWatch) op.Answer
  | 0, _ => Action.exhausted
  | allowance + 1, op =>
    Engine.stepNoted ⟨L.chronicled ChangeWatch.noting,
      fun body => body.run (performNoted L allowance)⟩ op

/-- **The outcome of a program from nothing**, with notes on changes. -/
def Body.notedRun (L : Language β σ) (allowance : Nat) (p : Body β σ α) (config : Config)
    (host : σ) : Option (Except ModelError α × World β (σ × ChangeWatch)) :=
  ((p.chronicled ChangeWatch.noting).run (performNoted L allowance)).outcome
    { config, host := (host, {}) }

/-! ## Noting changes nothing -/

namespace Mirrors

variable {x : Action β (σ × ChangeWatch) α} {y : Action β σ α}
  {f : Model β → ChangeWatch → ChangeWatch}

/-- What is noted is left out again. -/
theorem after_note (h : Mirrors (.along Prod.fst) x y) :
    Mirrors (.along Prod.fst) (Action.note f >>= fun _ => x) y :=
  .of_outcome fun w => h.outcome { w with host := (w.host.1, f w.model w.host.2) }

/-- A note may depend on the model of before. -/
theorem after_look {k : Model β → Action β (σ × ChangeWatch) α}
    (h : ∀ m, Mirrors (.along Prod.fst) (k m) y) :
    Mirrors (.along Prod.fst) (Action.model >>= k) y :=
  .of_outcome fun w => (h w.model).outcome w

/-- What is noted in the end is left out too. -/
theorem before_note (h : Mirrors (.along Prod.fst) x y) :
    Mirrors (.along Prod.fst) (do
      let result ← Action.attempt x
      Action.note f
      Action.ofExcept result) y := by
  refine .of_outcome fun w => ?_
  rw [h.outcome, outcome_bind, outcome_attempt]
  cases x.outcome w with
  | none => rfl
  | some out =>
    obtain ⟨r, w'⟩ := out
    cases r <;> rfl

end Mirrors

namespace Engine.Alike

variable {e : Engine β (σ × ChangeWatch)} {e' : Engine β σ} (h : e.Alike (.along Prod.fst) e')
include h

theorem writeNoted (id : InstanceId) (key : Symbol) (v : Value) :
    Mirrors (.along Prod.fst) (e.writeNoted id key v) (e'.writeProperty id key v) :=
  (h.writeProperty id key v).after_note

theorem restoreValuesNoted (id : InstanceId) (values : List (Symbol × Value)) :
    Mirrors (.along Prod.fst) (e.restoreValuesNoted id values) (e'.restoreValues id values) := by
  induction values with
  | nil => exact .pure _
  | cons entry rest ih =>
    unfold Engine.restoreValuesNoted Engine.restoreValues
    refine (h.getProperty id entry.1).bind fun now => ?_
    dsimp only
    split
    · exact (h.writeNoted id _ _).bind fun _ => ih
    · exact ih

theorem rollBackNoted (id : InstanceId) (before : PropertyCapture)
    (accepted : Except ModelError Bool) :
    Mirrors (.along Prod.fst) (e.rollBackNoted id before accepted)
      (e'.rollBack id before accepted) := by
  have hrestore : Mirrors (.along Prod.fst) (e.restoreNoted id before) (e'.restore id before) :=
    (Mirrors.update id _).bind fun _ => h.restoreValuesNoted id _
  unfold Engine.rollBackNoted Engine.rollBack
  exact Mirrors.currentKeys.bind fun keys => hrestore.bind fun _ =>
    (h.propsChanged id keys false).attempt.bind fun _ => (Mirrors.ofExcept _).bind fun _ =>
      (Mirrors.ofExcept _).bind fun _ => .pure _

theorem applyChangeNoted (id : InstanceId) (key : Symbol) (v : Value) (before : PropertyCapture) :
    Mirrors (.along Prod.fst) (e.applyChangeNoted id key v before)
      (e'.applyChange id key v before) := by
  have hask : Mirrors (.along Prod.fst)
      (e.writeNoted id key v >>= fun _ => e.propagateAndAsk id key)
      (e'.writeAndAsk id key v) :=
    (h.writeNoted id key v).bind fun _ => (h.propagate id key).bind fun _ =>
      Mirrors.currentKeys.bind fun _ => h.propsChanged id _ true
  unfold Engine.applyChangeNoted Engine.applyChange
  refine hask.attempt.bind fun accepted => ?_
  rcases accepted with err | accepted
  · exact (h.rollBackNoted id before _).bind fun _ => h.compare id before
  · cases accepted with
    | true => exact h.compare id before
    | false => exact (h.rollBackNoted id before _).bind fun _ => h.compare id before

theorem changeNoted (id : InstanceId) (key : Symbol) (v : Value) :
    Mirrors (.along Prod.fst) (e.changeNoted id key v) (e'.changeValidated id key v) := by
  unfold Engine.changeNoted Engine.changeValidated
  refine (h.capture id).bind fun before => (Mirrors.modifyChanges _).bind fun _ => ?_
  refine Mirrors.after_note ((h.applyChangeNoted id key v before).attempt.bind fun _ => ?_)
  exact (Mirrors.modifyChanges _).bind fun _ => .ofExcept _

theorem setPropertyNoted (id : InstanceId) (key : Symbol) (v : Value) :
    Mirrors (.along Prod.fst) (e.setPropertyNoted id key v) (e'.setProperty id key v) := by
  have hchange := h.changeNoted id key v
  unfold Engine.changeValidated at hchange
  have hset : Mirrors (.along Prod.fst) (do
      Action.modifyChanges (·.clearLast)
      e.setDeclaredNoted id key v ((← Action.find id).properties.get? key))
        (e'.setProperty id key v) := by
    unfold Engine.setProperty
    refine (Mirrors.modifyChanges _).bind fun _ => (Mirrors.find id).bind fun i => ?_
    cases i.properties.get? key with
    | none => exact .pure _
    | some d =>
      unfold Engine.setDeclaredNoted
      dsimp only
      split
      · exact .throw_bind _ _ _
      · exact .ifValidating ((h.checkValue id d v).bind fun _ => hchange) hchange
  unfold Engine.setPropertyNoted
  exact .after_look fun m => hset.before_note.after_note

/-- **Every operation with notes on changes** mirrors the operation. -/
theorem stepNoted (op : Op β) : Mirrors (.along Prod.fst) (e.stepNoted op) (e'.step op) := by
  cases hop : op.isRecorded with
  | false =>
    rw [e.stepNoted_of_not_isRecorded hop]
    by_cases hinfo : op = .info
    · subst hinfo
      exact .of_outcome fun _ => rfl
    · exact h.step op hinfo
  | true =>
    cases op with
    | writeProperty id key v => exact h.writeNoted id key v
    | setProperty id key v => exact h.setPropertyNoted id key v
    | _ => cases hop

end Engine.Alike

/-- **Operations with notes on changes mirror the operations**, however deep their bodies are
nested. -/
theorem mirrors_performNoted (L : Language β σ) (allowance : Nat) (op : Op β) :
    Mirrors (.along Prod.fst) (performNoted L allowance op) (perform L allowance op) := by
  induction allowance generalizing op with
  | zero => exact .exhausted
  | succ allowance ih => exact (Engine.Alike.chronicled ih).stepNoted op

/-- **Noting changes nothing.**  A program from outside has the outcome of its noted run, apart from
the notes. -/
theorem Body.outcome_notedRun (p : Body β σ α) (L : Language β σ) (allowance : Nat)
    (config : Config) (host : σ) :
    (Body.exec L allowance p).outcome { config, host } =
      (p.notedRun L allowance config host).map fun run => (run.1, run.2.project Prod.fst) :=
  (Mirrors.chronicled (mirrors_performNoted L allowance) p).outcome { config, host := (host, {}) }

end ProductModel
