import ProductModel.Proofs.Arena.WaysUp
import ProductModel.Proofs.ChainRuns
import ProductModel.Proofs.Run.Unobtrusive

/-!
# Picking

A pick on an instance may mean another one: instances that are hierarchically selectable pass it on
to their fathers.  The rules that decide about it are those of the instance that it means, while the
instance that was picked is only their argument.

`Language.PickMeans` says what a pick comes to once it is known what it means.  The target is the
first instance on the way up that keeps picks, or the root; only its own flag decides whether rules
are asked at all, and then it is its chain that is run, once.  `Language.pick_means` finds the
target, in every state of a run, and shows that whether other instances can be selected makes no
difference.
-/

namespace ProductModel

open ProductModel.Action

namespace Arena

variable {β : Type} {a b : Arena β} {x y : InstanceId} {i : Instance β} {ids : List InstanceId}

/-- Whether an instance keeps a pick, instead of passing it on to its father. -/
def keepsPicks (a : Arena β) (id : InstanceId) : Bool :=
  (a.get? id).any fun i => !i.flags.hierSelectable

theorem keepsPicks_eq (hi : a.get? x = some i) : a.keepsPicks x = !i.flags.hierSelectable := by
  rw [keepsPicks, hi, Option.any_some]

/-- **A climb past what passes picks on** ends at the first instance on the way up that keeps them,
or at the end of the way. -/
theorem Climbs.eq_find? (h : a.Climbs (·.flags.hierSelectable) x y) (hup : a.Ascent x ids)
    (d : InstanceId) : y = (ids.find? a.keepsPicks).getD (ids.getLastD d) := by
  induction h generalizing ids d with
  | @top x i hi hf =>
    obtain rfl := hup.eq_of_root hi hf
    rw [List.find?_singleton]
    split <;> rfl
  | @stay x i hi hstay =>
    have hkeeps : a.keepsPicks x = true := by rw [keepsPicks_eq hi, hstay, Bool.not_false]
    cases hup with
    | root => rw [List.find?_cons_of_pos hkeeps, Option.getD_some]
    | child => rw [List.find?_cons_of_pos hkeeps, Option.getD_some]
  | @up x f y i hi hf hgoes _ ih =>
    have hpasses : ¬a.keepsPicks x = true := by simp [keepsPicks_eq hi, hgoes]
    obtain ⟨rest, hrest, rfl⟩ := hup.exists_rest hi hf
    rw [List.find?_cons_of_neg hpasses, List.getLastD_cons]
    exact ih hrest _

/-- A climb sees nothing of an instance but its father and whether it goes on. -/
theorem Climbs.congr {goes : Instance β → Bool} (h : a.Climbs goes x y)
    (hparts : ∀ z, (b.get? z).map (fun j => (j.father, goes j)) =
      (a.get? z).map fun j => (j.father, goes j)) : b.Climbs goes x y := by
  induction h with
  | top hi hf =>
    obtain ⟨j, hj, heq⟩ := exists_get?_of_map_eq (hparts _) hi
    exact .top hj ((congrArg Prod.fst heq).trans hf)
  | stay hi hstay =>
    obtain ⟨j, hj, heq⟩ := exists_get?_of_map_eq (hparts _) hi
    exact .stay hj ((congrArg Prod.snd heq).trans hstay)
  | up hi hf hgoes _ ih =>
    obtain ⟨j, hj, heq⟩ := exists_get?_of_map_eq (hparts _) hi
    exact .up hj ((congrArg Prod.fst heq).trans hf) ((congrArg Prod.snd heq).trans hgoes) ih

/-- A pick that means an instance that is there means it as long as fathers and hierarchical
selectability stay. -/
theorem Forest.pickTarget_congr (ha : a.Forest) (hb : b.Forest) (hi : a.get? x = some i)
    (hparts : ∀ z, (b.get? z).map (fun j => (j.father, j.flags.hierSelectable)) =
      (a.get? z).map fun j => (j.father, j.flags.hierSelectable)) :
    b.pickTarget x = a.pickTarget x := by
  obtain ⟨j, hj, -⟩ := exists_get?_of_map_eq (hparts x) hi
  exact (hb.climbs_pickTarget hj).unique ((ha.climbs_pickTarget hi).congr hparts)

/-- Where a climb ends there is an instance. -/
theorem Climbs.present {goes : Instance β → Bool} (h : a.Climbs goes x y) :
    ∃ j, a.get? y = some j := by
  induction h with
  | top hi _ => exact ⟨_, hi⟩
  | stay hi _ => exact ⟨_, hi⟩
  | up _ _ _ _ ih => exact ih

end Arena

variable {β σ : Type} {w w' w₁ : World β σ} {x y target : InstanceId} {i t : Instance β}
  {n : Nat} {L : Language β σ} {pending : List Pending}

/-- What the rules of a target make of a pick. -/
def ChainOutcome.picking (target : InstanceId) : ChainOutcome → Option InstanceId
  | .passed _ => some target
  | .rejected _ => none

/-- **What a pick means and comes to.** -/
structure Language.PickMeans (L : Language β σ) (n : Nat) (w : World β σ) (x target : InstanceId)
    (t : Instance β) : Prop where
  there : w.model.arena.get? target = some t
  /-- the target is the nearest on the way up that keeps picks, or the root -/
  nearest : ∃ ids, w.model.arena.Ascent x ids ∧
    target = (ids.find? w.model.arena.keepsPicks).getD (ids.getLastD x)
  /-- a target that cannot be selected answers without rules, and nothing happens -/
  unselectable : t.flags.selectable = false →
    (perform L (n + 1) (.pick x)).outcome w = some (.ok none, w)
  /-- a target is picked when its chain was run with the picked instance, and has passed -/
  picked : ∀ {y w'}, (perform L (n + 1) (.pick x)).outcome w = some (.ok (some y), w') ↔
    y = target ∧ t.flags.selectable = true ∧ ∃ runs executed,
      (L.engine n).ChainRun w target t.type Reason.pick.symbol none (.ref x) runs
        (.ok (.passed executed)) w'
  /-- nothing is picked when the target cannot be selected, or one of its rules has rejected -/
  unpicked : ∀ {w'}, (perform L (n + 1) (.pick x)).outcome w = some (.ok none, w') ↔
    t.flags.selectable = false ∧ w' = w ∨
    t.flags.selectable = true ∧ ∃ runs rejection,
      (L.engine n).ChainRun w target t.type Reason.pick.symbol none (.ref x) runs
        (.ok (.rejected rejection)) w'
  /-- an error is that of the last one of its rules that were run -/
  failed : ∀ {err w'}, (perform L (n + 1) (.pick x)).outcome w = some (.error err, w') ↔
    t.flags.selectable = true ∧ ∃ runs run,
      (L.engine n).ChainRun w target t.type Reason.pick.symbol none (.ref x) runs
        (.error err) w' ∧ runs.getLast? = some run ∧ run.answer = .error err

namespace Engine

variable {e : Engine β σ} {r : Except ModelError (Option InstanceId)}

/-- A pick on an instance that is there. -/
theorem outcome_pick (hi : w.model.arena.get? x = some i)
    (ht : w.model.arena.get? (w.model.arena.pickTarget x) = some t) :
    (e.pick x).outcome w =
      if t.flags.selectable then
        ((e.callRules (w.model.arena.pickTarget x) Reason.pick.symbol none (.ref x)).outcome w).map
          fun p => (p.1.map (ChainOutcome.picking (w.model.arena.pickTarget x)), p.2)
      else some (.ok none, w) := by
  rw [pick, outcome_bind_ok (outcome_find hi), outcome_bind_ok rfl,
    outcome_bind_ok (outcome_find ht)]
  cases hselectable : t.flags.selectable with
  | false => rfl
  | true =>
    simp only [Bool.not_true, Bool.false_eq_true, if_false, if_true]
    rw [outcome_bind]
    cases (e.callRules (w.model.arena.pickTarget x) Reason.pick.symbol none (.ref x)).outcome w with
    | none => rfl
    | some out =>
      obtain ⟨r, w'⟩ := out
      cases r with
      | error err => rfl
      | ok outcome => cases outcome <;> rfl

/-- **The outcomes of a pick**, by the rules that its target runs. -/
theorem outcome_pick_iff (he : e.Considerate (OfModels (OfTypes Registry.NamesLast)))
    (hi : w.model.arena.get? x = some i) (htarget : w.model.arena.pickTarget x = target)
    (ht : w.model.arena.get? target = some t) :
    (e.pick x).outcome w = some (r, w') ↔
      (t.flags.selectable = false ∧ r = .ok none ∧ w' = w) ∨
      (t.flags.selectable = true ∧ ∃ runs answer,
        e.ChainRun w target t.type Reason.pick.symbol none (.ref x) runs answer w' ∧
        r = answer.map (ChainOutcome.picking target)) := by
  subst htarget
  rw [outcome_pick hi ht]
  cases t.flags.selectable with
  | false =>
    simp only [Bool.false_eq_true, if_false, Option.some.injEq, Prod.mk.injEq, true_and, false_and,
      or_false, eq_comm]
  | true =>
    simp only [if_true, Option.map_eq_some_iff, Bool.true_eq_false, false_and, false_or, true_and]
    constructor
    · rintro ⟨⟨answer, w₁⟩, hcall, heq⟩
      cases heq
      obtain ⟨runs, hruns⟩ := exists_chainRun ht he hcall
      exact ⟨runs, answer, hruns, rfl⟩
    · rintro ⟨runs, answer, hruns, rfl⟩
      exact ⟨(answer, w'), hruns.outcome_callRules ht he, rfl⟩

end Engine

section Answers

variable {answer : Except ModelError ChainOutcome}

/-- A target is the answer when its chain has passed. -/
theorem some_eq_picking : .ok (some y) = answer.map (ChainOutcome.picking target) ↔
    y = target ∧ ∃ executed, answer = .ok (.passed executed) := by
  obtain err | (executed | rejection) := answer
  · simp [Except.map]
  · simp [Except.map, ChainOutcome.picking]
  · simp [Except.map, ChainOutcome.picking]

/-- Nothing is the answer when the chain has rejected. -/
theorem none_eq_picking : .ok none = answer.map (ChainOutcome.picking target) ↔
    ∃ rejection, answer = .ok (.rejected rejection) := by
  obtain err | (executed | rejection) := answer
  · simp [Except.map]
  · simp [Except.map, ChainOutcome.picking]
  · simp [Except.map, ChainOutcome.picking]

/-- An error is the answer when the chain has failed with it. -/
theorem error_eq_picking {err : ModelError} :
    .error err = answer.map (ChainOutcome.picking target) ↔ answer = .error err := by
  obtain err' | outcome := answer
  · simp [Except.map, eq_comm]
  · simp [Except.map]

end Answers

/-- **A pick means the target of its climb.** -/
theorem Reachable.pickMeans (hw : Reachable pending w.model) (L : Language β σ) (n : Nat)
    (hi : w.model.arena.get? x = some i) (htarget : w.model.arena.pickTarget x = target)
    (ht : w.model.arena.get? target = some t) : L.PickMeans n w x target t := by
  have hforest := hw.sound.coherent.forest
  have hiff : ∀ {r w'}, (perform L (n + 1) (.pick x)).outcome w = some (r, w') ↔ _ :=
    Engine.outcome_pick_iff (L.respects_along Registry.along_namesLast n) hi htarget ht
  have hpath := hforest.ascent_path hi
  have hnearest := (hforest.climbs_pickTarget hi).eq_find? hpath x
  exact {
    there := ht
    nearest := ⟨_, hpath, htarget.symm.trans hnearest⟩
    unselectable := fun hselectable => hiff.mpr (.inl ⟨hselectable, rfl, rfl⟩)
    picked := by
      intro y w'
      rw [hiff]
      constructor
      · rintro (⟨-, hr, -⟩ | ⟨hselectable, runs, answer, hruns, hr⟩)
        · cases hr
        · obtain ⟨hy, executed, rfl⟩ := some_eq_picking.mp hr
          exact ⟨hy, hselectable, runs, executed, hruns⟩
      · rintro ⟨hy, hselectable, runs, executed, hruns⟩
        exact .inr ⟨hselectable, runs, _, hruns, some_eq_picking.mpr ⟨hy, executed, rfl⟩⟩
    unpicked := by
      intro w'
      rw [hiff]
      constructor
      · rintro (⟨hselectable, -, hw'⟩ | ⟨hselectable, runs, answer, hruns, hr⟩)
        · exact .inl ⟨hselectable, hw'⟩
        · obtain ⟨rejection, rfl⟩ := none_eq_picking.mp hr
          exact .inr ⟨hselectable, runs, rejection, hruns⟩
      · rintro (⟨hselectable, hw'⟩ | ⟨hselectable, runs, rejection, hruns⟩)
        · exact .inl ⟨hselectable, rfl, hw'⟩
        · exact .inr ⟨hselectable, runs, _, hruns, none_eq_picking.mpr ⟨rejection, rfl⟩⟩
    failed := by
      intro err w'
      rw [hiff]
      constructor
      · rintro (⟨-, hr, -⟩ | ⟨hselectable, runs, answer, hruns, hr⟩)
        · cases hr
        · obtain rfl := error_eq_picking.mp hr
          obtain ⟨run, hrun, hfail⟩ := (hruns.failed _).mp rfl
          exact ⟨hselectable, runs, run, hruns, hrun, hfail⟩
      · rintro ⟨hselectable, runs, -, hruns, -, -⟩
        exact .inr ⟨hselectable, runs, _, hruns, error_eq_picking.mpr rfl⟩ }

/-- The world after flags were set. -/
theorem Language.outcome_setFlags {y : InstanceId} {flags : InstanceFlags}
    (hset : (perform L (n + 1) (.setFlags y flags)).outcome w = some (.ok (), w₁)) :
    w₁.model.arena = w.model.arena.modify y fun i => { i with flags } := by
  have halways : (update y fun i => { i with flags } : Action β σ Unit).Always w
      (fun _ w' => w'.model.arena = w.model.arena.modify y fun i => { i with flags })
      fun _ _ => True :=
    (always_update y _).mpr ⟨fun _ _ => rfl, fun _ => trivial⟩
  exact halways.of_ok hset

/-- **What a pick means and comes to**, in every state of a run.  Flags of other instances matter as
far as they say which instances pass picks on: whether these can be selected does not. -/
theorem Language.pick_means (L : Language β σ) (n : Nat) (hw : Reachable pending w.model)
    (hi : w.model.arena.get? x = some i) :
    ∃ target t, L.PickMeans n w x target t ∧
      ∀ {y flags w₁}, y ≠ target →
        (∀ j, w.model.arena.get? y = some j → j.flags.hierSelectable = flags.hierSelectable) →
        (perform L (n + 1) (.setFlags y flags)).outcome w = some (.ok (), w₁) →
        L.PickMeans n w₁ x target t := by
  have hforest := hw.sound.coherent.forest
  obtain ⟨t, ht⟩ := (hforest.climbs_pickTarget hi).present
  refine ⟨_, t, hw.pickMeans L n hi rfl ht, ?_⟩
  intro y flags w₁ hy hpasses hset
  have hw₁ := hw.after_perform hset
  have harena := Language.outcome_setFlags hset
  have hparts : ∀ z, (w₁.model.arena.get? z).map (fun j => (j.father, j.flags.hierSelectable)) =
      (w.model.arena.get? z).map fun j => (j.father, j.flags.hierSelectable) := by
    rw [harena]
    exact Arena.map_get?_modify _ fun j hj => by rw [hpasses j hj]
  obtain ⟨i', hi', -⟩ := Arena.exists_get?_of_map_eq (hparts x) hi
  refine hw₁.pickMeans L n hi' (hforest.pickTarget_congr hw₁.sound.coherent.forest hi hparts) ?_
  rw [harena, Arena.get?_modify_of_ne hy.symm, ht]

/-! ## A desk with a handle -/

namespace Desk

/-- The language of rules that know their verdict. -/
def language : Language Verdict Unit where
  method _ _ := .pure .void
  rule verdict _ := .pure verdict
  evaluate _ _ _ := .pure ()
  inspect _ _ := .pure ()
  transformed _ _ _ host := host

/-- A type whose rule about picks gives a verdict. -/
def part (name : String) (verdict : Verdict) : TypeDef Verdict where
  name := name
  rules := [{ reason := Reason.pick.symbol, kind := .anterior, body := verdict }]

/-- The handle of a drawer of a desk. -/
def handle : InstanceId := ⟨2, 0⟩

/-- Makes a desk with a drawer and its handle.  Both pass picks on, neither agrees to be picked, and
the drawer cannot even be selected. -/
def build : Body Verdict Unit Unit := do
  let _ ← Program.call (Op.register (part "Desk" .accept))
  let _ ← Program.call (Op.register (part "Part" .reject))
  let desk ← Program.call (Op.instantiate "Desk" none "desk" [])
  let drawer ← Program.call (Op.instantiate "Part" (some desk) "drawer" [])
  let handle ← Program.call (Op.instantiate "Part" (some drawer) "handle" [])
  Program.call (Op.setFlags drawer { selectable := false, hierSelectable := true })
  Program.call (Op.setFlags handle { hierSelectable := true })

/-- A pick on the handle. -/
def picking : Action Verdict Unit (Option InstanceId) := perform language 2 (.pick handle)

/-- **A run with a desk**, and a pick on its handle. -/
theorem exists_picked : ∃ w w' i, Reachable [] w.model ∧ w.model.arena.get? handle = some i ∧
    picking.outcome w = some (.ok (some ⟨0, 0⟩), w') := by
  have hrun : ((Body.exec language 2 build).outcome { host := () }).any (fun built =>
      (built.2.model.arena.get? handle).isSome &&
      (picking.outcome built.2).any (·.1.toOption = some (some ⟨0, 0⟩))) = true := by
    decide +kernel
  simp only [Option.any_eq_true, Bool.and_eq_true, decide_eq_true_eq, Prod.exists] at hrun
  obtain ⟨r, w, hbuilt, hhandle, picked, w', hpick, hpicked⟩ := hrun
  obtain ⟨i, hi⟩ := Option.isSome_iff_exists.mp hhandle
  obtain rfl := eq_ok_of_toOption hpicked
  exact ⟨w, w', i, (Reachable.empty rfl rfl).after_exec hbuilt, hi, hpick⟩

end Desk

/-- A pick on the handle is decided by the desk, whose rule is the only one that is run. -/
theorem Language.pick_means_desk : ∃ w w' t runs executed,
    Reachable [] w.model ∧ Desk.language.PickMeans 1 w Desk.handle ⟨0, 0⟩ t ∧
    (Desk.language.engine 1).ChainRun w ⟨0, 0⟩ t.type Reason.pick.symbol none (.ref Desk.handle)
      runs (.ok (.passed executed)) w' := by
  obtain ⟨w, w', i, hw, hi, hpick⟩ := Desk.exists_picked
  obtain ⟨target, t, hmeans, -⟩ := Language.pick_means Desk.language 1 hw hi
  obtain ⟨rfl, -, runs, executed, hruns⟩ := hmeans.picked.mp hpick
  exact ⟨w, w', t, runs, executed, hw, hmeans, hruns⟩

end ProductModel
