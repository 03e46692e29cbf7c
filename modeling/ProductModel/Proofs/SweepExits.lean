import ProductModel.Proofs.Arena.Preorder
import ProductModel.Proofs.ChainRuns
import ProductModel.Proofs.Run.StorageMarked

/-!
# How sweeps end, and which marks they leave

A sweep over a subtree can end in four ways (`Sweep.Exit`): it goes through; it meets a rejection,
if it is one into storage, and takes the marks off again that it has made; it meets an error, its
own or that of a rule; or it meets a rejection and then misses an instance whose mark it would take
off.  Rules may create and remove instances meanwhile, those of the subtree included.

`Language.sweep_exits` says for every sweep in every state which instances are storable afterwards,
by the list of instances that the sweep has marked and the list of those whose marks it has taken
off.

## Design

A sweep into storage is not all or nothing.  After an error the marks stay that were made before it,
because only a rejection takes marks off; and a rejection takes marks off that an earlier sweep has
made, because they are not told apart.  A sweep out of storage that ends with an error leaves
those instances storable that it did not come to.  `Sweep.Traces.restored_iff` says when all
instances that are still there have the marks of before.
-/

namespace ProductModel

open ProductModel.Action

variable {β σ : Type} {m m₀ m' : Model β} {w w' : World β σ} {id root x y : InstanceId}
  {i j : Instance β} {kind : Sweep} {nodes ids done cleared : List InstanceId}
  {r : Except ModelError ChainOutcome} {f : Rejection}

/-! ## Exits -/

namespace Sweep

/-- **How a sweep over several instances ends.**  It has gone on after the chains of the first of
them, and has marked those; and of the first of these it has taken the marks off again. -/
inductive Exit (kind : Sweep) (nodes : List InstanceId) (m' : Model β) :
    Except ModelError ChainOutcome → List InstanceId → List InstanceId → Prop
  /-- it has gone through; if it is one into storage, no instance has rejected it -/
  | through {outcome : ChainOutcome} :
    (kind.enters = true → ∃ n, outcome = .passed n) → Exit kind nodes m' (.ok outcome) nodes []
  /-- an instance has rejected it, and all marks are taken off -/
  | rejected {done : List InstanceId} {f : Rejection} :
    kind.enters = true → done ++ [f.subject] <+: nodes →
    Exit kind nodes m' (.ok (.rejected f)) done done
  /-- the chain of an instance has failed, or the instance was gone -/
  | failed {done : List InstanceId} {x : InstanceId} {err : ModelError} :
    done ++ [x] <+: nodes → Exit kind nodes m' (.error err) done []
  /-- an instance has rejected it, and another one was gone that it had marked -/
  | missed {done cleared : List InstanceId} {x y : InstanceId} :
    kind.enters = true → done ++ [x] <+: nodes → cleared ++ [y] <+: done →
    m'.arena.get? y = none → Exit kind nodes m' (.error (Arena.destroyedError y)) done cleared

/-- **The marks that a sweep has made.** -/
def marks (kind : Sweep) (done cleared : List InstanceId) : Marks := fun y =>
  if y ∈ cleared then some false else if y ∈ done then some kind.enters else none

theorem marks_nil (kind : Sweep) : kind.marks [] [] = Marks.none := by
  funext y
  simp [marks, Marks.none]

/-- One more instance is marked. -/
theorem marks_concat (kind : Sweep) (done : List InstanceId) (x : InstanceId) :
    (kind.marks done []).andThen (.single x kind.enters) = kind.marks (done ++ [x]) [] := by
  funext y
  by_cases hy : y = x
  · simp [marks, Marks.andThen, Marks.single, hy]
  · simp [marks, Marks.andThen, Marks.single, hy]

/-- One more mark is taken off. -/
theorem marks_clear (kind : Sweep) (done cleared : List InstanceId) (x : InstanceId) :
    (kind.marks done cleared).andThen (.single x false) = kind.marks done (cleared ++ [x]) := by
  funext y
  by_cases hy : y = x
  · simp [marks, Marks.andThen, Marks.single, hy]
  · simp [marks, Marks.andThen, Marks.single, hy]

/-- **A sweep has ended** and left its marks. -/
def Ends (kind : Sweep) (nodes : List InstanceId) (m : Model β)
    (r : Except ModelError ChainOutcome) (m' : Model β) : Prop :=
  ∃ done cleared, kind.Exit nodes m' r done cleared ∧ m.MarkedBy (kind.marks done cleared) m'

end Sweep

/-- A subtree begins with its top. -/
theorem Arena.root_prefix_preorder (a : Arena β) (x : InstanceId) : [x] <+: a.preorder x := by
  unfold preorder
  cases a.depthLimit with
  | zero => exact List.prefix_rfl
  | succ limit => exact List.cons_prefix_cons.mpr ⟨rfl, List.nil_prefix⟩

/-! ## Marks are taken off -/

/-- **Marks are taken off in turn**, up to the first instance that is gone. -/
theorem always_unmark (h : m₀.MarkedBy (kind.marks done cleared) w.model) :
    (Engine.markStorable false ids : Action β σ Unit).Always w
      (fun _ w' => m₀.MarkedBy (kind.marks done (cleared ++ ids)) w'.model)
      fun err w' => ∃ more y, err = Arena.destroyedError y ∧ more ++ [y] <+: ids ∧
        w'.model.arena.get? y = none ∧
        m₀.MarkedBy (kind.marks done (cleared ++ more)) w'.model := by
  induction ids generalizing w cleared with
  | nil =>
    refine (always_pure _).mpr ?_
    rwa [List.append_nil]
  | cons x ids ih =>
    unfold Engine.markStorable
    rw [always_bind, always_update]
    refine ⟨fun i hi => ?_, fun hgone => ?_⟩
    · -- `x` is cleared, and the others are cleared after it.
      have hmarked : m₀.MarkedBy (kind.marks done (cleared ++ [x]))
          (w.model.modify x fun i => { i with storable := false }) :=
        kind.marks_clear done cleared x ▸ h.trans (.mark h.stored x false)
      refine (ih (w := { w with model := _ }) hmarked).mono ?_ ?_
      · rintro - w' hw'
        rwa [List.append_cons]
      · rintro err w' ⟨more, y, herr, hmore, hgone, hw'⟩
        refine ⟨x :: more, y, herr, List.cons_prefix_cons.mpr ⟨rfl, hmore⟩, hgone, ?_⟩
        rwa [List.append_cons]
    · refine ⟨[], x, rfl, List.cons_prefix_cons.mpr ⟨rfl, List.nil_prefix⟩, hgone, ?_⟩
      rwa [List.append_nil]

/-! ## Both kinds of sweep -/

namespace Engine

variable {e : Engine β σ}

/-- A chain that is rejected names the instance that it was run on. -/
theorem subject_of_rejected (he : e.Considerate (OfModels (OfTypes Registry.NamesLast)))
    {reason : Symbol} {phase : Option RuleKind} {arg : Value}
    (h : (e.callRules id reason phase arg).outcome w = some (.ok (.rejected f), w')) :
    f.subject = id := by
  have hthere : ∃ i, w.model.arena.get? id = some i := by
    have htyped : (typeOf id : Action β σ TypeId).Always w
        (fun _ _ => ∃ i, w.model.arena.get? id = some i) fun _ _ => True :=
      (always_typeOf id).mpr ⟨fun i hi => ⟨i, hi⟩, fun _ => trivial⟩
    unfold callRules at h
    obtain ⟨type, w₁, htype, -⟩ := exists_of_bind_ok h
    exact htyped.of_ok htype
  obtain ⟨i, hi⟩ := hthere
  obtain ⟨runs, hruns⟩ := exists_chainRun hi he h
  obtain ⟨run, -, -, rfl⟩ := (hruns.rejected f).mp rfl
  rfl

variable (he : e.Considerate (OfModels (OfTypes Registry.NamesLast)))
  (hu : e.Considerate (OfModels Model.Unmarked))

section Chains

include hu

/-- **A chain marks nothing**. -/
theorem markedBy_callRules {marks : Marks} {reason : Symbol} {phase : Option RuleKind}
    {arg : Value} (h : m₀.MarkedBy marks w.model)
    (hr : (e.callRules id reason phase arg).outcome w = some (r, w')) :
    m₀.MarkedBy marks w'.model := by
  have hchain := (hu.lenient_callRules Model.permissive_unmarked.lenient id reason phase
    arg).of_outcome hr
  exact h.trans (hchain h.stored)

end Chains

/-- An instance is marked, if it is there; its chain was the last one otherwise. -/
theorem always_mark (ids : List InstanceId) {storable : Bool} {rest : Action β σ ChainOutcome}
    (henters : kind.enters = storable) (h : m₀.MarkedBy (kind.marks done []) w.model)
    (hrest : ∀ w', m₀.MarkedBy (kind.marks (done ++ [x]) []) w'.model →
      rest.Always w' (fun outcome w' => kind.Ends (done ++ [x] ++ ids) m₀ (.ok outcome) w'.model)
        fun err w' => kind.Ends (done ++ [x] ++ ids) m₀ (.error err) w'.model) :
    (update x (fun i => { i with storable }) >>= fun _ => rest).Always w
      (fun outcome w' => kind.Ends (done ++ [x] ++ ids) m₀ (.ok outcome) w'.model)
      fun err w' => kind.Ends (done ++ [x] ++ ids) m₀ (.error err) w'.model := by
  rw [always_bind, always_update]
  refine ⟨fun i hi => hrest _ ?_, fun hgone => ?_⟩
  · have hmark : w.model.MarkedBy (.single x kind.enters)
        (w.model.modify x fun i => { i with storable }) := henters ▸ .mark h.stored x _
    exact kind.marks_concat done x ▸ h.trans hmark
  · exact ⟨done, [], .failed (List.prefix_append _ _), h⟩

include he hu

/-- **How a sweep into storage ends.** -/
theorem always_enterStorable (henters : kind.enters = true) {executed : Nat}
    (h : m₀.MarkedBy (kind.marks done []) w.model) :
    (e.enterStorable kind.reason.symbol done executed ids).Always w
      (fun outcome w' => kind.Ends (done ++ ids) m₀ (.ok outcome) w'.model)
      fun err w' => kind.Ends (done ++ ids) m₀ (.error err) w'.model := by
  induction ids generalizing w done executed with
  | nil =>
    refine (always_pure _).mpr ⟨done, [], ?_, h⟩
    rw [List.append_nil]
    exact .through fun _ => ⟨executed, rfl⟩
  | cons x ids ih =>
    have hnodes : done ++ x :: ids = done ++ [x] ++ ids := List.append_cons done x ids
    have hbegins : done ++ [x] <+: done ++ [x] ++ ids := List.prefix_append _ _
    unfold Engine.enterStorable
    rw [always_bind, hnodes]
    intro r w₁ hr
    have hchain := markedBy_callRules hu h hr
    -- The chain on `x` fails, passes, or rejects; a rejection takes all marks off again.
    rcases r with err | n | f
    · exact ⟨done, [], .failed hbegins, hchain⟩
    · exact always_mark ids henters hchain fun _ hw' => ih hw'
    · have hsubject := subject_of_rejected he hr
      dsimp only
      rw [always_bind]
      refine (always_unmark hchain).mono (fun _ w' hcleared => ?_) ?_
      · refine (always_pure _).mpr ⟨done, done, .rejected henters ?_, hcleared⟩
        rwa [hsubject]
      · rintro err w' ⟨cleared, y, rfl, hcleared, hgone, hmarks⟩
        exact ⟨done, cleared, .missed henters hbegins hcleared hgone, hmarks⟩

omit he in
/-- **How a sweep out of storage ends.** -/
theorem always_leaveStorable (henters : kind.enters = false) {executed : Nat}
    {rejection : Option Rejection} (h : m₀.MarkedBy (kind.marks done []) w.model) :
    (e.leaveStorable kind.reason.symbol executed rejection ids).Always w
      (fun outcome w' => kind.Ends (done ++ ids) m₀ (.ok outcome) w'.model)
      fun err w' => kind.Ends (done ++ ids) m₀ (.error err) w'.model := by
  induction ids generalizing w done executed rejection with
  | nil =>
    have hends : ∀ outcome, kind.Ends (done ++ []) m₀ (.ok outcome) w.model := by
      refine fun outcome => ⟨done, [], ?_, h⟩
      rw [List.append_nil]
      exact .through fun h => absurd (henters.symm.trans h) Bool.false_ne_true
    cases rejection <;> exact (always_pure _).mpr (hends _)
  | cons x ids ih =>
    have hnodes : done ++ x :: ids = done ++ [x] ++ ids := List.append_cons done x ids
    rw [Engine.leaveStorable, always_bind, hnodes]
    intro r w₁ hr
    have hchain := markedBy_callRules hu h hr
    rcases r with err | n | f
    · exact ⟨done, [], .failed (List.prefix_append _ _), hchain⟩
    · exact always_mark ids henters hchain fun _ hw' => ih hw'
    · exact always_mark ids henters hchain fun _ hw' => ih hw'

/-- **How a sweep over a subtree ends.** -/
theorem ends_sweep (hstored : w.model.arena.Stored)
    (hr : (e.sweep kind root).outcome w = some (r, w')) :
    kind.Ends (w.model.arena.preorder root) w.model r w'.model := by
  have hstart : w.model.MarkedBy (kind.marks [] []) w.model :=
    kind.marks_nil ▸ Model.MarkedBy.refl hstored
  have hends : (e.sweep kind root).Always w
      (fun outcome w' => kind.Ends (w.model.arena.preorder root) w.model (.ok outcome) w'.model)
      fun err w' => kind.Ends (w.model.arena.preorder root) w.model (.error err) w'.model := by
    unfold Engine.sweep
    rw [always_bind, always_find]
    refine ⟨fun i _ => ?_, fun _ => ?_⟩
    · rw [always_bind, always_model]
      dsimp only
      split
      · rename_i henters
        exact always_enterStorable he hu henters hstart
      · rename_i henters
        exact always_leaveStorable hu (eq_false_of_ne_true henters) hstart
    · exact ⟨[], [], .failed (w.model.arena.root_prefix_preorder root), hstart⟩
  cases r with
  | ok outcome => exact hends.of_ok hr
  | error err => exact hends.of_error hr

end Engine

/-! ## What sweeps leave -/

/-- **An instance that is still there**, under its handle and with its number. -/
structure Model.Survives (m m' : Model β) (y : InstanceId) (i j : Instance β) : Prop where
  before : m.arena.get? y = some i
  after : m'.arena.get? y = some j
  same : j.order = i.order

/-- **What a sweep over a subtree leaves**: how it has ended, and which instances are storable. -/
structure Sweep.Traces (kind : Sweep) (root : InstanceId) (m : Model β)
    (r : Except ModelError ChainOutcome) (m' : Model β) (nodes done cleared : List InstanceId) :
    Prop where
  /-- fathers come before their children, and children in order of creation -/
  preorder : m.arena.Preorder root nodes
  once : nodes.Nodup
  exit : kind.Exit nodes m' r done cleared
  /-- an instance that is still there has the mark that the sweep has made, or that of before -/
  kept : ∀ {y i j}, m.Survives m' y i j → j.storable = (kind.marks done cleared y).getD i.storable
  /-- one that was created meanwhile is not storable, unless its handle is one that was marked -/
  created : ∀ {y j}, m'.arena.get? y = some j → (∀ i, ¬m.Survives m' y i j) → y ∉ done →
    j.storable = false
  /-- a sweep out of storage without an error leaves nothing storable -/
  left : kind.enters = false → ∀ outcome, r = .ok outcome → ∀ {y i j}, y ∈ nodes →
    m.Survives m' y i j → j.storable = false
  /-- a sweep into storage leaves all marks as they were if and only if the marks that it leaves
  were there before, and those that it has taken off were not -/
  restored_iff : kind.enters = true →
    ((∀ {y i j}, m.Survives m' y i j → j.storable = i.storable) ↔
      ∀ {y i j}, y ∈ done → m.Survives m' y i j → (i.storable = true ↔ y ∉ cleared))

namespace Sweep

theorem Exit.cleared_subset (h : kind.Exit nodes m' r done cleared) : cleared ⊆ done := by
  cases h with
  | through _ => exact List.nil_subset _
  | rejected _ _ => exact List.Subset.refl _
  | failed _ => exact List.nil_subset _
  | missed _ _ hcleared _ =>
    exact fun y hy => hcleared.subset (List.mem_append_left _ hy)

/-- Without an error a sweep out of storage goes through. -/
theorem Exit.eq_through {outcome : ChainOutcome} (h : kind.Exit nodes m' r done cleared)
    (henters : kind.enters = false) (hr : r = .ok outcome) : done = nodes ∧ cleared = [] := by
  cases h with
  | through _ => exact ⟨rfl, rfl⟩
  | rejected h _ => exact absurd (henters.symm.trans h) Bool.false_ne_true
  | failed _ => cases hr
  | missed h _ _ _ => exact absurd (henters.symm.trans h) Bool.false_ne_true

theorem marks_of_not_mem (h : cleared ⊆ done) (hy : y ∉ done) :
    kind.marks done cleared y = none := by
  rw [marks, if_neg fun hc => hy (h hc), if_neg hy]

theorem Ends.traces (h : kind.Ends nodes m r m') (hm : m.Coherent)
    (hnodes : m.arena.Preorder root nodes) :
    ∃ done cleared, kind.Traces root m r m' nodes done cleared := by
  obtain ⟨done, cleared, hexit, hmarked⟩ := h
  have hkept : ∀ {y i j}, m.Survives m' y i j →
      j.storable = (kind.marks done cleared y).getD i.storable := by
    intro y i j hy
    rcases hmarked.origin hy.after with ⟨i', hi', -, hmark⟩ | ⟨hnew, -⟩
    · rw [hy.before] at hi'
      cases hi'
      exact hmark
    · -- What was there before is not new, since orders only grow.
      have hold := hm.ordered hy.before
      rw [hy.same] at hnew
      exact absurd hnew (Nat.not_lt.mpr hold)
  refine ⟨done, cleared, hnodes, hnodes.nodup hm.forest, hexit, hkept, ?_, ?_, ?_⟩
  · intro y j hj hother hy
    rcases hmarked.origin hj with ⟨i, hi, horder, -⟩ | ⟨-, hmark⟩
    · exact absurd ⟨hi, hj, horder.symm⟩ (hother i)
    · exact hmark (marks_of_not_mem hexit.cleared_subset hy)
  · intro henters outcome hr y i j hy hsurvives
    obtain ⟨rfl, rfl⟩ := hexit.eq_through henters hr
    rw [hkept hsurvives, marks, if_neg List.not_mem_nil, if_pos hy, henters]
    rfl
  · intro henters
    have hmark : ∀ {y i j}, y ∈ done → m.Survives m' y i j → (j.storable = true ↔ y ∉ cleared) := by
      intro y i j hy hsurvives
      rw [hkept hsurvives, marks, if_pos hy, henters]
      by_cases hc : y ∈ cleared
      · simp [hc]
      · simp [hc]
    constructor
    · intro hall y i j hy hsurvives
      rw [← hall hsurvives]
      exact hmark hy hsurvives
    · intro hall y i j hsurvives
      by_cases hy : y ∈ done
      · exact Bool.eq_iff_iff.mpr ((hmark hy hsurvives).trans (hall hy hsurvives).symm)
      · rw [hkept hsurvives, marks_of_not_mem hexit.cleared_subset hy, Option.getD_none]

end Sweep

/-- **How a sweep ends and what it leaves**, in every state of a run, when the bodies that run for
it run no sweeps themselves, whatever else they do. -/
theorem Language.sweep_exits (L : Language β σ) (n : Nat) {refusal : ModelError}
    {pending : List Pending} (hw : Reachable pending w.model)
    (hr : (perform (L.sweepless refusal) (n + 1) (.sweep kind root)).outcome w = some (r, w')) :
    ∃ nodes done cleared, kind.Traces root w.model r w'.model nodes done cleared := by
  have hm := hw.sound.coherent
  have hends := Engine.ends_sweep ((L.sweepless refusal).respects_along Registry.along_namesLast n)
    (L.considerate_sweepless n) hm.stored hr
  exact ⟨_, hends.traces hm (hm.forest.preorder_preorder root)⟩

/-! ## A shelf with a torn book -/

namespace Bindery

/-- The error that the rules of a torn book raise. -/
def damage : ModelError := .dispatch .divisionByZero

/-- The error of what sweeps may not do. -/
def refusal : ModelError := .dispatch (.notCallable "bindery")

/-- **The language of rules that know their verdict, or fail.** -/
def language : Language (Option Verdict) Unit where
  method _ _ := .pure .void
  rule verdict _ := verdict.elim (.fail damage) .pure
  evaluate _ _ _ := .pure ()
  inspect _ _ := .pure ()
  transformed _ _ _ host := host

/-- A type with one rule about storage for each reason. -/
def kept (name : String) (verdict : Option Verdict) : TypeDef (Option Verdict) where
  name := name
  rules := [Reason.startDump, Reason.finishDump].map fun reason =>
    { reason := reason.symbol, kind := .anterior, body := verdict }

/-- Makes a shelf with two books and a torn one between them, of which the last one is storable. -/
def build : Body (Option Verdict) Unit Unit := do
  let _ ← Program.call (Op.register (kept "Shelf" (some .accept)))
  let _ ← Program.call (Op.register (kept "Book" (some .accept)))
  let _ ← Program.call (Op.register (kept "Torn" none))
  let shelf ← Program.call (Op.instantiate "Shelf" none "shelf" [])
  let _ ← Program.call (Op.instantiate "Book" (some shelf) "first" [])
  let _ ← Program.call (Op.instantiate "Torn" (some shelf) "torn" [])
  let last ← Program.call (Op.instantiate "Book" (some shelf) "last" [])
  let _ ← Program.call (Op.sweep .startDump last)

/-- A sweep over the shelf. -/
def sweeping (kind : Sweep) : Action (Option Verdict) Unit ChainOutcome :=
  perform (language.sweepless refusal) 2 (.sweep kind ⟨0, 0⟩)

/-- The number of an instance in the order of creation, and whether it is storable. -/
def mark? (w : World (Option Verdict) Unit) (id : InstanceId) : Option (Nat × Bool) :=
  (w.model.arena.get? id).map fun i => (i.order, i.storable)

/-- Whether a sweep fails over the torn book, with the marks of an instance before and after it. -/
def fails (kind : Sweep) (id : InstanceId) (before after : Nat × Bool)
    (w : World (Option Verdict) Unit) : Bool :=
  ((sweeping kind).outcome w).any fun out =>
    (match out.1 with
      | .error err => decide (err = damage)
      | .ok _ => false) && decide (mark? w id = some before) && decide (mark? out.2 id = some after)

theorem exists_of_fails {kind : Sweep} {before after : Nat × Bool}
    {w : World (Option Verdict) Unit} (h : fails kind id before after w = true)
    (horder : after.1 = before.1) :
    ∃ w' i j, (sweeping kind).outcome w = some (.error damage, w') ∧
      w.model.Survives w'.model id i j ∧ i.storable = before.2 ∧ j.storable = after.2 := by
  unfold fails at h
  simp only [Option.any_eq_true, Bool.and_eq_true, decide_eq_true_eq, Prod.exists] at h
  obtain ⟨r, w', hr, ⟨hfails, hbefore⟩, hafter⟩ := h
  obtain ⟨i, hi, rfl⟩ := Option.map_eq_some_iff.mp hbefore
  obtain ⟨j, hj, rfl⟩ := Option.map_eq_some_iff.mp hafter
  cases r with
  | ok outcome => cases hfails
  | error err =>
    obtain rfl := of_decide_eq_true hfails
    exact ⟨w', i, j, hr, ⟨hi, hj, horder⟩, rfl, rfl⟩

/-- **A run with a torn book on the shelf**, and what sweeps over the shelf do to the first book and
to the last one. -/
theorem exists_shelf : ∃ w, Reachable [] w.model ∧
    fails .startDump ⟨1, 0⟩ (2, false) (2, true) w = true ∧
    fails .finishDump ⟨3, 0⟩ (4, true) (4, true) w = true := by
  have hrun : ((Body.exec language 2 build).outcome { host := () }).any (fun built =>
      fails .startDump ⟨1, 0⟩ (2, false) (2, true) built.2 &&
      fails .finishDump ⟨3, 0⟩ (4, true) (4, true) built.2) = true := by
    decide +kernel
  simp only [Option.any_eq_true, Bool.and_eq_true, Prod.exists] at hrun
  obtain ⟨r, w, hbuilt, hstart, hfinish⟩ := hrun
  exact ⟨w, (Reachable.empty rfl rfl).after_exec hbuilt, hstart, hfinish⟩

end Bindery

/-- When the torn book fails a sweep into storage, the first book stays storable, which it was not
before; when it fails one out of storage, so does the last book, which comes after it. -/
theorem Language.sweep_exits_torn : ∃ w w₁ w₂ nodes₁ done₁ cleared₁ nodes₂ done₂ cleared₂,
    (Bindery.sweeping .startDump).outcome w = some (.error Bindery.damage, w₁) ∧
    Sweep.Traces .startDump ⟨0, 0⟩ w.model (.error Bindery.damage) w₁.model nodes₁ done₁ cleared₁ ∧
    (∃ i j, w.model.Survives w₁.model ⟨1, 0⟩ i j ∧ i.storable = false ∧ j.storable = true) ∧
    (Bindery.sweeping .finishDump).outcome w = some (.error Bindery.damage, w₂) ∧
    Sweep.Traces .finishDump ⟨0, 0⟩ w.model (.error Bindery.damage) w₂.model nodes₂ done₂ cleared₂ ∧
    ∃ i j, w.model.Survives w₂.model ⟨3, 0⟩ i j ∧ j.storable = true := by
  obtain ⟨w, hw, hstart, hfinish⟩ := Bindery.exists_shelf
  obtain ⟨w₁, i₁, j₁, hr₁, hkept₁, hbefore₁, hafter₁⟩ := Bindery.exists_of_fails hstart rfl
  obtain ⟨w₂, i₂, j₂, hr₂, hkept₂, -, hafter₂⟩ := Bindery.exists_of_fails hfinish rfl
  obtain ⟨nodes₁, done₁, cleared₁, htraces₁⟩ := Language.sweep_exits Bindery.language 1 hw hr₁
  obtain ⟨nodes₂, done₂, cleared₂, htraces₂⟩ := Language.sweep_exits Bindery.language 1 hw hr₂
  exact ⟨w, w₁, w₂, nodes₁, done₁, cleared₁, nodes₂, done₂, cleared₂, hr₁, htraces₁,
    ⟨i₁, j₁, hkept₁, hbefore₁, hafter₁⟩, hr₂, htraces₂, i₂, j₂, hkept₂, hafter₂⟩

end ProductModel
