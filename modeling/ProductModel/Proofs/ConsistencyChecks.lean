import ProductModel.Proofs.Arena.Preorder
import ProductModel.Proofs.Run.Checking

/-!
# What a consistency check adds to a log

Several orders meet in a check: that of the walk, that of presentation, that of the lineage of a
type, and that of the log, which sorts by order numbers whatever comes when.  And the number that is
answered is not counted, but is the difference of two totals of a log that other checks have written
to before.

`Language.check_runs` takes them apart.  A check goes through the subtree once, fathers first, and
remarks at each instance first what is wrong with its properties and then what its types have to
say; what it remarks is added to the log under the number and the name of the instance, and nothing
else happens (`Engine.CheckRun`).  Whether changes of properties are validated makes no difference.

## Design

The statement is an equivalence: a check ends if and only if the computations of choices do that it
asks for.  Their errors are problems like others.
-/

namespace ProductModel

open ProductModel.Action

variable {β σ : Type} {w w' : World β σ} {root : InstanceId} {i : Instance β} {log : ProblemLog}

/-- Everything that is reported in a run of a check, as the instances were at the beginning. -/
def Inspected.problems (visits : List Inspected) (a : Arena β) : List (Nat × Problem) :=
  visits.flatMap (·.entries a)

/-- **How a check of a subtree runs**: which instances are visited, what is found at them, and what
becomes of the log. -/
structure Engine.CheckRun (e : Engine β σ) (w : World β σ) (root : InstanceId) (log : ProblemLog)
    (visits : List Inspected) (after : ProblemLog) (found : Nat) (w' : World β σ) : Prop where
  /-- fathers are visited before their children, and children in order of creation -/
  preorder : w.model.arena.Preorder root (visits.map (·.node))
  once : (visits.map (·.node)).Nodup
  /-- they are checked one after the other, properties in presentation order and then types -/
  ran : e.Inspecting w w visits w'
  /-- at most, names and method lookups are remembered -/
  unmoved : w.Unmoved w'
  /-- what is reported is added to the log in this order, and nothing else -/
  appended : after = log.pushAll (Inspected.problems visits w.model.arena)
  counted : found = (Inspected.problems visits w.model.arena).length
  /-- of every number, the earlier problems stay in front, and those that are added follow -/
  groups : ∀ o, after.problemsOf o = log.problemsOf o ++
    ((Inspected.problems visits w.model.arena).filter (·.1 == o)).map (·.2)
  inOrder : after.InOrder
  /-- all problems are listed by increasing number -/
  listed : after.Listed

/-- A check of a subtree is a check of its instances beside a log. -/
theorem Engine.outcome_checkConsistency {e : Engine β σ} (hi : w.model.arena.get? root = some i) :
    (e.checkConsistency root log).outcome w =
      ((e.checkAll (w.model.arena.preorder root)).outcome (w.beside log)).map fun p =>
        (.ok ⟨p.2.host.2, p.1.map fun _ => p.2.host.2.size - log.size⟩,
          { p.2 with host := p.2.host.1 }) := by
  have hwalk : (do
      let _ ← find root
      e.checkAll ((← Action.model).arena.preorder root) : Logged β σ Unit).outcome
        (w.beside log) = (e.checkAll (w.model.arena.preorder root)).outcome (w.beside log) := by
    rw [outcome_bind_ok (outcome_find (w := w.beside log) hi)]
    exact outcome_bind_ok rfl
  rw [checkConsistency, outcome_bind, (outcome_collecting log _ w).trans (congrArg _ hwalk)]
  cases (e.checkAll (w.model.arena.preorder root)).outcome (w.beside log) <;> rfl

/-- **What a consistency check adds to a log**, in every state of a run, whatever the log has in it.
The check ends if and only if the computations of choices do. -/
theorem Language.check_runs (L : Language β σ) (n : Nat) {pending : List Pending}
    (hw : Reachable pending w.model) (hi : w.model.arena.get? root = some i)
    (hcheckable : L.Checkable n w (w.model.arena.preorder root)) (hlog : log.InOrder)
    {r : Except ModelError CheckResult} :
    (perform L (n + 1) (.checkConsistency root log)).outcome w = some (r, w') ↔
      ∃ visits after found, r = .ok ⟨after, .ok found⟩ ∧
        (L.engine n).CheckRun w root log visits after found w' := by
  have hforest := hw.sound.coherent.forest
  have hpreorder := hforest.preorder_preorder root
  have hs : World.Steady pending w w := ⟨.refl w, hw⟩
  have hthere : ∀ y ∈ w.model.arena.preorder root, ∃ j, w.model.arena.get? y = some j :=
    fun y hy => (hforest.mem_preorder.mp hy).present hforest hi
  show ((L.engine n).checkConsistency root log).outcome w = some (r, w') ↔ _
  rw [Engine.outcome_checkConsistency hi]
  have hfound : ∀ {visits w'}, (L.engine n).Inspecting w w visits w' →
      visits.map (·.node) = w.model.arena.preorder root →
      ((L.engine n).checkAll (w.model.arena.preorder root)).outcome (w.beside log) =
        some (.ok (), w'.beside (log.pushAll (Inspected.problems visits w.model.arena))) := by
    intro visits w' hran hnodes
    rw [← hnodes]
    refine hran.outcome_checkAll hw hcheckable (fun visit hvisit => ?_) hs
    rw [← hnodes]
    exact List.mem_map_of_mem hvisit
  constructor
  · intro h
    obtain ⟨⟨answer, last⟩, hall, heq⟩ := Option.map_eq_some_iff.mp h
    obtain ⟨visits, w₁, hnodes, hran⟩ :=
      Engine.exists_inspecting hw hcheckable (fun _ hy => hy) hthere hs hall
    rw [hfound hran hnodes] at hall
    cases hall
    cases heq
    have hids : ∀ visit ∈ visits, visit.node ∈ w.model.arena.preorder root :=
      fun visit hvisit => hnodes ▸ List.mem_map_of_mem hvisit
    refine ⟨visits, _, _, rfl, ?_⟩
    exact
      { preorder := hnodes ▸ hpreorder
        once := hnodes ▸ hpreorder.nodup hforest
        ran := hran
        unmoved := (hran.steady hcheckable hids hs).unmoved
        appended := rfl
        counted := Nat.sub_eq_of_eq_add' ProblemLog.size_pushAll
        groups := hlog.problemsOf_pushAll
        inOrder := hlog.pushAll
        listed := hlog.pushAll.listed }
  · rintro ⟨visits, after, found, rfl, hrun⟩
    have hnodes := hrun.preorder.unique hpreorder
    have hsize : (log.pushAll (Inspected.problems visits w.model.arena)).size - log.size =
        (Inspected.problems visits w.model.arena).length :=
      Nat.sub_eq_of_eq_add' ProblemLog.size_pushAll
    rw [hfound hrun.ran hnodes, hrun.appended, hrun.counted, ← hsize]
    rfl

/-! ## A lantern on a chain -/

namespace Lantern

/-- **The language of lanterns.**  Every method answers the sockets that there are, and a check of a
type reports the text that it is. -/
def language : Language String Unit where
  method _ _ := .pure (.list [.str "E14", .str "E27"])
  rule _ _ := .pure .accept
  evaluate _ _ _ := .pure ()
  inspect text id := Program.call (InspectOp.report id none text)
  transformed _ _ _ host := host

def lantern : InstanceId := ⟨0, 0⟩

def chain : InstanceId := ⟨1, 0⟩

def hook : InstanceId := ⟨2, 0⟩

def socket : PropertyDef := { key := ⟨"socket"⟩, name := "Socket", kind := .choiceFn ⟨"sockets"⟩ }

def label : PropertyDef :=
  { key := ⟨"label"⟩, name := "Label", kind := .string, bounds := some (.length 3) }

def load : PropertyDef := { key := ⟨"load"⟩, name := "Load", kind := .int, state := .disabled }

/-- Makes a lantern on a chain with a hook.  None of their values fits its property, but that of the
hook is disabled. -/
def build : Body String Unit Unit := do
  let _ ← Program.call (Op.register { name := "Fitting", check := some "not fitted" })
  let _ ← Program.call (Op.register
    { name := "Lantern", supertype := some "Fitting"
      methods := [{ name := ⟨"sockets"⟩, body := "" }], check := some "not lit" })
  let _ ← Program.call (Op.instantiate "Lantern" none "lantern" [])
  let _ ← Program.call (Op.instantiate "Fitting" (some lantern) "chain" [])
  let _ ← Program.call (Op.instantiate "Fitting" (some chain) "hook" [])
  let _ ← Program.call (Op.setupProperty lantern socket)
  let _ ← Program.call (Op.setupProperty chain label)
  let _ ← Program.call (Op.setupProperty hook load)
  Program.call (Op.writeProperty lantern socket.key (.str "E10"))
  Program.call (Op.writeProperty chain label.key (.str "north"))
  Program.call (Op.writeProperty hook load.key (.str "heavy"))

/-- A problem of the chain that is known before. -/
def rusty : Problem := ⟨chain, "chain", none, "rusty"⟩

/-- A problem of an instance that does not hang below the lantern. -/
def broken : Problem := ⟨⟨6, 0⟩, "post", none, "broken"⟩

/-- What is known before: of the chain, whose number is 2, and of an instance that is not below. -/
def known : ProblemLog := (ProblemLog.empty.push 7 broken).push 2 rusty

/-- What is known afterwards. -/
def listed : List Problem :=
  [⟨lantern, "lantern", some socket.key,
      "invalid value for property socket: E10 is not one of the allowed choices"⟩,
    ⟨lantern, "lantern", none, "not fitted"⟩,
    ⟨lantern, "lantern", none, "not lit"⟩,
    rusty,
    ⟨chain, "lantern.chain", some label.key,
      "invalid value for property label: longer than 3 characters"⟩,
    ⟨chain, "lantern.chain", none, "not fitted"⟩,
    ⟨hook, "lantern.chain.hook", none, "not fitted"⟩,
    broken]

/-- **Lanterns can be checked**: their methods do nothing but answer, and their checks report problems
of their own instance. -/
theorem checkable {w : World String Unit} {ids : List InstanceId} (n : Nat)
    (hplain : ∀ y ∈ ids, ∀ i, w.model.arena.get? y = some i → w.Plain i.properties i.type) :
    language.Checkable n w ids where
  plain hy hi := hplain _ hy _ hi
  choices {y key _ _ _} _ _ hr := by
    have hrespects : (language.engine n).Respectful World.Unmoved :=
      ⟨fun _ _ => World.Unmoved.neutral.pure _, fun _ _ _ => World.Unmoved.neutral.pure _⟩
    exact (hrespects.choices World.Unmoved.neutral y key).of_outcome hr
  reports _ _ _ _ := ⟨fun _ hx => (Option.some.inj hx).symm, fun r => by cases r <;> trivial⟩

/-- **A run with a lantern**, which is then checked. -/
theorem exists_checked : ∃ w i after w', Reachable [] w.model ∧
    w.model.arena.get? lantern = some i ∧
    language.Checkable 2 w (w.model.arena.preorder lantern) ∧
    (perform language 3 (.checkConsistency lantern known)).outcome w =
      some (.ok ⟨after, .ok 6⟩, w') ∧
    after.toList = listed := by
  have hrun : ((Body.exec language 3 build).outcome { host := () }).any (fun built =>
      (built.2.model.arena.get? lantern).isSome &&
      (built.2.model.arena.preorder lantern).all (fun y =>
        (built.2.model.arena.get? y).all fun i => built.2.Plain i.properties i.type) &&
      ((perform language 3 (.checkConsistency lantern known)).outcome built.2).any fun checked =>
        checked.1.toOption.any fun answer =>
          decide (answer.found.toOption = some 6 ∧ answer.log.toList = listed)) = true := by
    decide +kernel
  simp only [Option.any_eq_true, Option.all_eq_true, Bool.and_eq_true, List.all_eq_true,
    decide_eq_true_eq, Prod.exists] at hrun
  obtain ⟨_, w, hbuilt, ⟨hthere, hplain⟩, r, w', hcheck, answer, hr, hfound, hlisted⟩ := hrun
  obtain ⟨i, hi⟩ := Option.isSome_iff_exists.mp hthere
  obtain ⟨after, found⟩ := answer
  obtain rfl := eq_ok_of_toOption hr
  obtain rfl := eq_ok_of_toOption hfound
  exact ⟨w, i, after, w', (Reachable.empty rfl rfl).after_exec hbuilt, hi, checkable 2 hplain,
    hcheck, hlisted⟩

end Lantern

/-- A lantern is checked, and its chain and the hook after it.  What is wrong with a property comes
first, and then the types have their say.  The chain has been known to be rusty, and this stays in
front of what is added. -/
theorem Language.check_runs_lantern : ∃ w visits after w',
    (Lantern.language.engine 2).CheckRun w Lantern.lantern Lantern.known visits after 6 w' ∧
    after.toList = Lantern.listed := by
  obtain ⟨w, i, after, w', hw, hi, hcheckable, hcheck, hlisted⟩ := Lantern.exists_checked
  have hknown : Lantern.known.InOrder := ProblemLog.inOrder_empty.push.push
  obtain ⟨visits, _, _, heq, hrun⟩ :=
    (Language.check_runs Lantern.language 2 hw hi hcheckable hknown).mp hcheck
  cases heq
  exact ⟨w, visits, after, w', hrun, hlisted⟩

end ProductModel
