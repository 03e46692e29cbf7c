import Mathlib.Data.List.Basic
import ProductModel.Proofs.Run.Outcomes
import ProductModel.Proofs.Run.TypesKept

/-!
# What a rule chain runs

A chain is a list of rules that is assembled when the chain starts.  Its rules may do whatever
bodies can do: redefine the type of the instance, add rules to it, or start further chains on the
same instance.  None of this changes the chain that is running.  `Language.chain_runs` says what it
comes to, in terms of the rules that were run (`RuleRun`) one after the other
(`Engine.Consecutive`):

* these are the first rules of the list, in its order, and all but the last of them have accepted;
* if all rules of the list were run and accepted, the chain has passed;
* if the last one has rejected, this is the rejection that is reported, with the position of the
  rule in the list and the name of the type that declares it;
* if the last one has failed, its error is that of the chain.

The statement is an equivalence, so a chain ends whenever its rules do.

## Design

The name of the declaring type is looked up when the rule has rejected.  It is the name that the
type had when the chain was assembled, because rules cannot take types away or rename them
(`Registry.along_namesLast`).
-/

namespace ProductModel

open ProductModel.Action

variable {β σ : Type} {w w' w'' : World β σ} {id : InstanceId} {i : Instance β}

/-! ## Rules one after the other -/

/-- **One rule of a chain at work**: the link, how its body is called, and what it answers. -/
structure RuleRun (β : Type) where
  link : ChainLink β
  call : RuleCall
  answer : Except ModelError Verdict

/-- How a link is called in a chain on an instance. -/
def ChainLink.callFor (link : ChainLink β) (id : InstanceId) (reason : Symbol) (arg : Value) :
    RuleCall :=
  ⟨id, reason, link.rule.argument arg, link.definingType⟩

/-- A link at work in such a chain, with an answer. -/
def ChainLink.answering (link : ChainLink β) (id : InstanceId) (reason : Symbol) (arg : Value)
    (answer : Except ModelError Verdict) : RuleRun β :=
  ⟨link, link.callFor id reason arg, answer⟩

namespace Engine

/-- **Rules are run one after the other**, each in the world that the one before it has left. -/
inductive Consecutive (e : Engine β σ) : World β σ → List (RuleRun β) → World β σ → Prop
  | nil {w : World β σ} : Consecutive e w [] w
  | cons {w w₁ w' : World β σ} {run : RuleRun β} {runs : List (RuleRun β)} :
    (e.run (e.language.rule run.link.rule.body run.call)).outcome w = some (run.answer, w₁) →
    Consecutive e w₁ runs w' → Consecutive e w (run :: runs) w'

variable {e : Engine β σ} {run : RuleRun β} {runs earlier : List (RuleRun β)}
  {links rest : List (ChainLink β)} {reason : Symbol} {arg : Value} {position : Nat}
  {r : Except ModelError ChainOutcome}

namespace Consecutive

theorem single (run : RuleRun β)
    (h : (e.run (e.language.rule run.link.rule.body run.call)).outcome w =
      some (run.answer, w')) : e.Consecutive w [run] w' := .cons h .nil

theorem append {later : List (RuleRun β)} (h : e.Consecutive w runs w')
    (h' : e.Consecutive w' later w'') : e.Consecutive w (runs ++ later) w'' := by
  induction h with
  | nil => exact h'
  | cons hrun _ ih => exact .cons hrun (ih h')

/-- Rules that were run can be parted. -/
theorem of_append {later : List (RuleRun β)} (h : e.Consecutive w (runs ++ later) w') :
    ∃ w₁, e.Consecutive w runs w₁ ∧ e.Consecutive w₁ later w' := by
  induction runs generalizing w with
  | nil => exact ⟨w, .nil, h⟩
  | cons run runs ih =>
    cases h with
    | cons hrun hrest =>
      obtain ⟨w₁, hruns, hlater⟩ := ih hrest
      exact ⟨w₁, .cons hrun hruns, hlater⟩

/-- **What rules respect**, rules one after the other respect. -/
theorem respects {R : World β σ → World β σ → Prop} (hR : Tolerant R) (he : e.Considerate R)
    (h : e.Consecutive w runs w') : R w w' := by
  induction h with
  | nil => exact hR.refl _
  | cons hrun _ ih => exact hR.trans ((he.rule _ _).of_outcome hrun) ih

end Consecutive

/-! ## Links -/

/-- **Rules were run for a chain and accepted.** -/
structure Accepted (e : Engine β σ) (id : InstanceId) (reason : Symbol) (arg : Value)
    (w : World β σ) (runs : List (RuleRun β)) (w' : World β σ) : Prop where
  ran : e.Consecutive w runs w'
  told : ∀ run ∈ runs, run.call = run.link.callFor id reason arg
  accept : ∀ run ∈ runs, run.answer = .ok .accept

theorem Accepted.nil (w : World β σ) : e.Accepted id reason arg w [] w :=
  ⟨.nil, List.forall_mem_nil _, List.forall_mem_nil _⟩

theorem Accepted.cons {link : ChainLink β} {w₁ : World β σ}
    (h : (e.run (e.language.rule link.rule.body (link.callFor id reason arg))).outcome w =
      some (.ok .accept, w₁)) (h' : e.Accepted id reason arg w₁ runs w') :
    e.Accepted id reason arg w (link.answering id reason arg (.ok .accept) :: runs) w' :=
  ⟨.cons h h'.ran, List.forall_mem_cons.mpr ⟨rfl, h'.told⟩,
    List.forall_mem_cons.mpr ⟨rfl, h'.accept⟩⟩

/-- Behind rules that accept, a chain goes on with the next position. -/
theorem Accepted.outcome_runLinks (h : e.Accepted id reason arg w runs w') :
    (e.runLinks id reason arg position (runs.map (·.link) ++ rest)).outcome w =
      (e.runLinks id reason arg (position + runs.length) rest).outcome w' := by
  obtain ⟨hran, htold, haccept⟩ := h
  induction hran generalizing position with
  | nil => rfl
  | @cons w w₁ w' run runs hrun _ ih =>
    rw [htold run List.mem_cons_self, haccept run List.mem_cons_self] at hrun
    rw [List.map_cons, List.cons_append, outcome_runLinks_accept hrun,
      ih (fun run hmem => htold run (List.mem_cons_of_mem _ hmem))
        fun run hmem => haccept run (List.mem_cons_of_mem _ hmem), List.length_cons,
      Nat.add_assoc, Nat.add_comm 1]

/-- **A rule that does not accept ends the chain.** -/
inductive Ends (e : Engine β σ) (id : InstanceId) (reason : Symbol) (arg : Value)
    (position : Nat) (w : World β σ) (link : ChainLink β) :
    Except ModelError ChainOutcome → World β σ → Prop
  | rejecting {w' : World β σ} :
    (e.run (e.language.rule link.rule.body (link.callFor id reason arg))).outcome w =
      some (.ok .reject, w') →
    Ends e id reason arg position w link
      (.ok (.rejected ⟨id, reason, w'.model.types.name link.definingType, position⟩)) w'
  | failing {w' : World β σ} {err : ModelError} :
    (e.run (e.language.rule link.rule.body (link.callFor id reason arg))).outcome w =
      some (.error err, w') →
    Ends e id reason arg position w link (.error err) w'

theorem runLinks_cases {link : ChainLink β}
    (h : (e.runLinks id reason arg position (link :: links)).outcome w = some (r, w')) :
    (∃ w₁, (e.run (e.language.rule link.rule.body (link.callFor id reason arg))).outcome w =
        some (.ok .accept, w₁) ∧
      (e.runLinks id reason arg (position + 1) links).outcome w₁ = some (r, w')) ∨
    e.Ends id reason arg position w link r w' := by
  cases hbody : (e.run (e.language.rule link.rule.body
    (link.callFor id reason arg))).outcome w with
  | none =>
    rw [runLinks] at h
    cases h.symm.trans (outcome_bind_none hbody)
  | some out =>
    obtain ⟨answer, w₁⟩ := out
    cases answer with
    | error err =>
      rw [outcome_runLinks_error hbody] at h
      cases h
      exact .inr (.failing hbody)
    | ok verdict =>
      cases verdict with
      | accept =>
        rw [outcome_runLinks_accept hbody] at h
        exact .inl ⟨w₁, rfl, h⟩
      | reject =>
        rw [outcome_runLinks_reject hbody] at h
        cases h
        exact .inr (.rejecting hbody)

/-- **How the links of a chain end**: after rules that accept there is no link left, or the next
rule ends the chain. -/
theorem exists_accepted
    (h : (e.runLinks id reason arg position links).outcome w = some (r, w')) :
    ∃ runs w₁, e.Accepted id reason arg w runs w₁ ∧
      ((links = runs.map (·.link) ∧ w' = w₁ ∧ r = .ok (.passed (position + runs.length))) ∨
      ∃ link rest, links = runs.map (·.link) ++ link :: rest ∧
        e.Ends id reason arg (position + runs.length) w₁ link r w') := by
  induction links generalizing position w with
  | nil =>
    cases h
    exact ⟨[], _, .nil _, .inl ⟨rfl, rfl, rfl⟩⟩
  | cons link links ih =>
    rcases runLinks_cases h with ⟨w₁, haccept, hrest⟩ | hends
    · obtain ⟨runs, w₂, hruns, hend⟩ := ih hrest
      refine ⟨_, w₂, .cons haccept hruns, ?_⟩
      rw [List.length_cons, Nat.add_comm runs.length, ← Nat.add_assoc, List.map_cons]
      rcases hend with ⟨rfl, hw, hr⟩ | ⟨next, rest, rfl, hends⟩
      · exact .inl ⟨rfl, hw, hr⟩
      · exact .inr ⟨next, rest, rfl, hends⟩
    · exact ⟨[], w, .nil w, .inr ⟨link, links, rfl, hends⟩⟩

/-! ## Names of declaring types -/

/-- The type that declares a rule of a chain is there. -/
theorem definingType_lt {types : Registry β} {type : TypeId} {phase : Option RuleKind}
    {link : ChainLink β} (h : link ∈ types.ruleChain type reason phase) :
    link.definingType.index < types.size := by
  obtain ⟨t, -, hlink⟩ := List.mem_flatMap.mp h
  cases hd : types.definition? t with
  | none => simp [hd] at hlink
  | some d =>
    rw [hd] at hlink
    obtain ⟨rule, -, rfl⟩ := List.mem_map.mp hlink
    obtain ⟨record, hrecord, -⟩ := Option.map_eq_some_iff.mp hd
    exact (List.getElem?_eq_some_iff.mp hrecord).1

/-- **The type that declares a rule of a chain has the same name** when rules have been run. -/
theorem Consecutive.name (he : e.Considerate (OfModels (OfTypes Registry.NamesLast)))
    (h : e.Consecutive (w.entering id) runs w') {type : TypeId} {phase : Option RuleKind}
    {link : ChainLink β} (hlink : link ∈ w.model.types.ruleChain type reason phase) :
    w'.model.types.name link.definingType = w.model.types.name link.definingType :=
  (h.respects Registry.along_namesLast.tolerant he).name (definingType_lt hlink)

/-! ## Chains -/

/-- **How a chain is run on an instance**: which rules are at work, one after the other, and what
the chain comes to. -/
structure ChainRun (e : Engine β σ) (w : World β σ) (id : InstanceId) (type : TypeId)
    (reason : Symbol) (phase : Option RuleKind) (arg : Value) (runs : List (RuleRun β))
    (r : Except ModelError ChainOutcome) (w' : World β σ) : Prop where
  /-- the rules that are run begin the list as it was when the chain started -/
  begins : runs.map (·.link) <+: w.model.types.ruleChain type reason phase
  /-- nullary rules see no argument, and all others see that of the chain -/
  told : ∀ run ∈ runs, run.call =
    ⟨id, reason, if run.link.rule.nullary then .void else arg, run.link.definingType⟩
  /-- while they are run the instance is busy, once more than before -/
  ran : ∃ last, e.Consecutive (w.entering id) runs last ∧ w' = last.leaving id
  before : ∀ run ∈ runs.dropLast, run.answer = .ok .accept
  passed : ∀ executed, r = .ok (.passed executed) ↔
    executed = (w.model.types.ruleChain type reason phase).length ∧
    runs.map (·.link) = w.model.types.ruleChain type reason phase ∧
    ∀ run ∈ runs, run.answer = .ok .accept
  rejected : ∀ rejection, r = .ok (.rejected rejection) ↔
    ∃ run, runs.getLast? = some run ∧ run.answer = .ok .reject ∧
      rejection = ⟨id, reason, w.model.types.name run.link.definingType, runs.length - 1⟩
  failed : ∀ err, r = .error err ↔ ∃ run, runs.getLast? = some run ∧ run.answer = .error err

section Names

variable {type : TypeId} {phase : Option RuleKind}

/-- The rules of a chain that has passed. -/
theorem Accepted.chainRun {last : World β σ}
    (h : e.Accepted id reason arg (w.entering id) runs last)
    (hall : w.model.types.ruleChain type reason phase = runs.map (·.link)) :
    e.ChainRun w id type reason phase arg runs (.ok (.passed runs.length)) (last.leaving id) where
  begins := hall ▸ List.prefix_rfl
  told := h.told
  ran := ⟨last, h.ran, rfl⟩
  before run hrun := h.accept run (List.dropLast_subset _ hrun)
  passed executed := by
    rw [hall, List.length_map]
    constructor
    · intro heq
      cases heq
      exact ⟨rfl, rfl, h.accept⟩
    · rintro ⟨rfl, -, -⟩
      rfl
  rejected rejection := by
    refine ⟨nofun, ?_⟩
    rintro ⟨run, hlast, hreject, -⟩
    rw [h.accept run (List.mem_of_getLast? hlast)] at hreject
    cases hreject
  failed err := by
    refine ⟨nofun, ?_⟩
    rintro ⟨run, hlast, hfail⟩
    rw [h.accept run (List.mem_of_getLast? hlast)] at hfail
    cases hfail

section Concat

variable {last : RuleRun β} {w₁ : World β σ}

/-- The rules of a chain up to one of them are its first ones. -/
theorem begins_concat {chain : List (ChainLink β)}
    (hchain : chain = runs.map (·.link) ++ last.link :: rest) :
    (runs ++ [last]).map (·.link) <+: chain := by
  refine ⟨rest, ?_⟩
  rw [hchain, List.map_append, List.append_assoc]
  rfl

theorem Accepted.told_concat (h : e.Accepted id reason arg w runs w₁)
    (hlast : last.call = last.link.callFor id reason arg) :
    ∀ run ∈ runs ++ [last], run.call = run.link.callFor id reason arg := by
  intro run hrun
  rcases List.mem_append.mp hrun with hrun | hrun
  · exact h.told run hrun
  · rw [List.mem_singleton.mp hrun]
    exact hlast

theorem Accepted.before_concat (h : e.Accepted id reason arg w runs w₁) :
    ∀ run ∈ (runs ++ [last]).dropLast, run.answer = .ok .accept := by
  intro run hrun
  rw [List.dropLast_concat] at hrun
  exact h.accept run hrun

/-- What is said of the last rule is said of one rule. -/
theorem getLast_concat_iff {p : RuleRun β → Prop} :
    (∃ run, (runs ++ [last]).getLast? = some run ∧ p run) ↔ p last := by
  rw [List.getLast?_concat]
  exact ⟨fun ⟨run, hrun, hp⟩ => Option.some.inj hrun ▸ hp, fun hp => ⟨last, rfl, hp⟩⟩

/-- Not all rules accept if the last one does not. -/
theorem not_accept_concat (hlast : last.answer ≠ .ok .accept) :
    ¬∀ run ∈ runs ++ [last], run.answer = .ok .accept :=
  fun haccept => hlast (haccept _ List.mem_concat_self)

end Concat

section Ending

variable {link : ChainLink β} {last : World β σ}

/-- The rules of a chain of which the last one has rejected. -/
theorem Accepted.chainRun_of_reject
    (he : e.Considerate (OfModels (OfTypes Registry.NamesLast)))
    (h : e.Accepted id reason arg (w.entering id) runs last)
    (hchain : w.model.types.ruleChain type reason phase = runs.map (·.link) ++ link :: rest)
    (hrun : (e.run (e.language.rule link.rule.body (link.callFor id reason arg))).outcome last =
      some (.ok .reject, w')) :
    e.ChainRun w id type reason phase arg (runs ++ [link.answering id reason arg (.ok .reject)])
      (.ok (.rejected ⟨id, reason, w'.model.types.name link.definingType, runs.length⟩))
      (w'.leaving id) where
  begins := begins_concat hchain
  told := h.told_concat rfl
  ran := ⟨w', h.ran.append (.single _ hrun), rfl⟩
  before := h.before_concat
  passed executed :=
    ⟨nofun, fun ⟨_, _, haccept⟩ => absurd haccept (not_accept_concat nofun)⟩
  rejected rejection := by
    have hran := h.ran.append (.single (link.answering id reason arg (.ok .reject)) hrun)
    have hname := hran.name he (hchain ▸ List.mem_append_right _ List.mem_cons_self)
    rw [getLast_concat_iff, hname, List.length_append]
    constructor
    · intro heq
      cases heq
      exact ⟨rfl, rfl⟩
    · rintro ⟨-, rfl⟩
      rfl
  failed err := by
    rw [getLast_concat_iff]
    exact ⟨nofun, nofun⟩

/-- The rules of a chain of which the last one has failed. -/
theorem Accepted.chainRun_of_fail {err : ModelError}
    (h : e.Accepted id reason arg (w.entering id) runs last)
    (hchain : w.model.types.ruleChain type reason phase = runs.map (·.link) ++ link :: rest)
    (hrun : (e.run (e.language.rule link.rule.body (link.callFor id reason arg))).outcome last =
      some (.error err, w')) :
    e.ChainRun w id type reason phase arg (runs ++ [link.answering id reason arg (.error err)])
      (.error err) (w'.leaving id) where
  begins := begins_concat hchain
  told := h.told_concat rfl
  ran := ⟨w', h.ran.append (.single _ hrun), rfl⟩
  before := h.before_concat
  passed executed :=
    ⟨nofun, fun ⟨_, _, haccept⟩ => absurd haccept (not_accept_concat nofun)⟩
  rejected rejection := by
    rw [getLast_concat_iff]
    exact ⟨nofun, fun ⟨hreject, _⟩ => nomatch hreject⟩
  failed err' := by
    rw [getLast_concat_iff]
    constructor
    · intro heq
      cases heq
      rfl
    · intro heq
      cases heq
      rfl

/-- The rules of a chain of which the last one has ended it. -/
theorem Accepted.chainRun_of_ends
    (he : e.Considerate (OfModels (OfTypes Registry.NamesLast)))
    (h : e.Accepted id reason arg (w.entering id) runs last)
    (hchain : w.model.types.ruleChain type reason phase = runs.map (·.link) ++ link :: rest)
    (hends : e.Ends id reason arg runs.length last link r w') :
    ∃ run, e.ChainRun w id type reason phase arg (runs ++ [run]) r (w'.leaving id) := by
  cases hends with
  | rejecting hrun => exact ⟨_, h.chainRun_of_reject he hchain hrun⟩
  | failing hrun => exact ⟨_, h.chainRun_of_fail hchain hrun⟩

end Ending

/-- The last one of the rules that were run, and those before it. -/
theorem ChainRun.exists_last {last : World β σ}
    (h : e.ChainRun w id type reason phase arg runs r w')
    (hran : e.Consecutive (w.entering id) runs last) (hrun : runs.getLast? = some run) :
    ∃ w₁ rest, e.Accepted id reason arg (w.entering id) runs.dropLast w₁ ∧
      w.model.types.ruleChain type reason phase =
        runs.dropLast.map (·.link) ++ run.link :: rest ∧
      (e.run (e.language.rule run.link.rule.body (run.link.callFor id reason arg))).outcome w₁ =
        some (run.answer, last) := by
  have hsplit : runs.dropLast ++ [run] = runs := List.dropLast_append_getLast? run hrun
  obtain ⟨rest, hrest⟩ := h.begins
  rw [← hsplit] at hran
  obtain ⟨w₁, hbefore, hlast⟩ := hran.of_append
  refine ⟨w₁, rest, ⟨hbefore, fun run hmem => h.told run (List.dropLast_subset _ hmem), h.before⟩,
    ?_, ?_⟩
  · rw [← hrest, ← hsplit, List.map_append, List.append_assoc, hsplit]
    rfl
  · cases hlast with
    | cons hbody hnil =>
      cases hnil
      rw [← hbody, h.told run (List.mem_of_getLast? hrun)]
      rfl

/-- **A chain comes to what its rules come to.** -/
theorem ChainRun.outcome_callRules (hi : w.model.arena.get? id = some i)
    (he : e.Considerate (OfModels (OfTypes Registry.NamesLast)))
    (h : e.ChainRun w id i.type reason phase arg runs r w') :
    (e.callRules id reason phase arg).outcome w = some (r, w') := by
  obtain ⟨last, hran, rfl⟩ := h.ran
  rw [outcome_callRules_eq hi]
  refine Option.map_eq_some_iff.mpr ⟨(r, last), ?_, rfl⟩
  cases r with
  | error err =>
    -- All rules before the last one accept, so the outcome is that of the last one.
    obtain ⟨run, hrun, hfail⟩ := (h.failed err).mp rfl
    obtain ⟨w₁, rest, hbefore, hchain, hbody⟩ := h.exists_last hran hrun
    rw [hchain, hbefore.outcome_runLinks]
    rw [hfail] at hbody
    exact outcome_runLinks_error hbody
  | ok outcome =>
    cases outcome with
    | passed executed =>
      obtain ⟨rfl, hall, haccept⟩ := (h.passed executed).mp rfl
      have hrun : e.Accepted id reason arg (w.entering id) runs last := ⟨hran, h.told, haccept⟩
      rw [← hall, ← List.append_nil (runs.map _), hrun.outcome_runLinks, List.append_nil,
        List.length_map, Nat.zero_add]
      rfl
    | rejected rejection =>
      obtain ⟨run, hrun, hreject, rfl⟩ := (h.rejected rejection).mp rfl
      obtain ⟨w₁, rest, hbefore, hchain, hbody⟩ := h.exists_last hran hrun
      have hname := hran.name he (hchain ▸ List.mem_append_right _ List.mem_cons_self)
      rw [hreject] at hbody
      rw [hchain, hbefore.outcome_runLinks, outcome_runLinks_reject hbody, hname, Nat.zero_add,
        List.length_dropLast]

/-- **What a chain comes to, its rules come to.** -/
theorem exists_chainRun (hi : w.model.arena.get? id = some i)
    (he : e.Considerate (OfModels (OfTypes Registry.NamesLast)))
    (h : (e.callRules id reason phase arg).outcome w = some (r, w')) :
    ∃ runs, e.ChainRun w id i.type reason phase arg runs r w' := by
  rw [outcome_callRules_eq hi, Option.map_eq_some_iff] at h
  obtain ⟨⟨r', last⟩, hlinks, heq⟩ := h
  cases heq
  obtain ⟨runs, w₁, hruns, ⟨hall, rfl, rfl⟩ | ⟨link, rest, hchain, hends⟩⟩ :=
    exists_accepted hlinks
  · rw [Nat.zero_add]
    exact ⟨runs, hruns.chainRun hall⟩
  · rw [Nat.zero_add] at hends
    obtain ⟨run, hrun⟩ := hruns.chainRun_of_ends he hchain hends
    exact ⟨_, hrun⟩

end Names

end Engine

/-- **What a rule chain runs**, whatever its rules do, and what it comes to.  It ends if and only if
its rules do. -/
theorem Language.chain_runs (L : Language β σ) (n : Nat) (hi : w.model.arena.get? id = some i)
    (reason : Symbol) (phase : Option RuleKind) (arg : Value)
    {r : Except ModelError ChainOutcome} :
    (perform L (n + 1) (.callRules id reason phase arg)).outcome w = some (r, w') ↔
      ∃ runs, (L.engine n).ChainRun w id i.type reason phase arg runs r w' := by
  have he := L.respects_along Registry.along_namesLast n
  constructor
  · exact Engine.exists_chainRun hi he
  · rintro ⟨runs, hruns⟩
    exact hruns.outcome_callRules hi he

/-! ## A rule that redefines the type of its instance -/

namespace Turnstile

/-- What a rule of a turnstile does. -/
inductive Deed where
  | agree
  | refuse
  /-- takes all rules away from the type, and asks for the same reason again -/
  | disarm
  deriving DecidableEq

/-- The reason for which a turnstile is asked. -/
def turn : Symbol := ⟨"TURN"⟩

/-- **The language of these rules.** -/
def language : Language Deed Unit where
  method _ _ := .pure .void
  rule deed call :=
    match deed with
    | .agree => .pure .accept
    | .refuse => .pure .reject
    | .disarm => do
      let _ ← Program.call (Op.redefine "Turnstile" { name := "Turnstile" })
      let outcome ← Program.call (Op.callRules call.subject call.reason none .void)
      return .ofBool outcome.isSuccess
  evaluate _ _ _ := .pure ()
  inspect _ _ := .pure ()
  transformed _ _ _ host := host

/-- A type with a rule that takes all rules away, one that refuses and one that agrees. -/
def turnstile : TypeDef Deed where
  name := "Turnstile"
  rules := [.disarm, .refuse, .agree].map fun body => { reason := turn, kind := .anterior, body }

/-- Makes a turnstile. -/
def build : Body Deed Unit Unit := do
  let _ ← Program.call (Op.register turnstile)
  let _ ← Program.call (Op.instantiate "Turnstile" none "turnstile" [])

/-- The rules of a turnstile are asked. -/
def asking : Action Deed Unit ChainOutcome :=
  perform language 3 (.callRules ⟨0, 0⟩ turn none .void)

/-- **A turnstile refuses** by its second rule, although its first rule has taken away both. -/
theorem exists_refusal : ∃ w w' i, w.model.arena.get? ⟨0, 0⟩ = some i ∧
    (w.model.types.ruleChain i.type turn none).length = 3 ∧
    w'.model.types.ruleChain i.type turn none = [] ∧
    asking.outcome w = some (.ok (.rejected ⟨⟨0, 0⟩, turn, "Turnstile", 1⟩), w') := by
  have hrun : ((Body.exec language 3 build).outcome { host := () }).any (fun built =>
      (built.2.model.arena.get? ⟨0, 0⟩).any fun i =>
        (built.2.model.types.ruleChain i.type turn none).length = 3 &&
        (asking.outcome built.2).any fun asked =>
          asked.1.toOption = some (.rejected ⟨⟨0, 0⟩, turn, "Turnstile", 1⟩) &&
          (asked.2.model.types.ruleChain i.type turn none).isEmpty) = true := by
    decide +kernel
  simp only [Option.any_eq_true, Bool.and_eq_true, decide_eq_true_eq, Prod.exists,
    List.isEmpty_iff] at hrun
  obtain ⟨-, w, -, i, hi, hthree, r, w', hasked, hr, hnone⟩ := hrun
  refine ⟨w, w', i, hi, hthree, hnone, ?_⟩
  cases r with
  | ok outcome => rw [hasked, Option.some.inj hr]
  | error err => cases hr

end Turnstile

/-- The rules that a turnstile has run are the first two of the three that it had. -/
theorem Language.chain_runs_turnstile : ∃ w w' i runs,
    w.model.arena.get? ⟨0, 0⟩ = some i ∧
    w'.model.types.ruleChain i.type Turnstile.turn none = [] ∧
    runs.map (·.link) = (w.model.types.ruleChain i.type Turnstile.turn none).take 2 ∧
    (Turnstile.language.engine 2).ChainRun w ⟨0, 0⟩ i.type Turnstile.turn none .void runs
      (.ok (.rejected ⟨⟨0, 0⟩, Turnstile.turn, "Turnstile", 1⟩)) w' := by
  obtain ⟨w, w', i, hi, hthree, hnone, hasked⟩ := Turnstile.exists_refusal
  obtain ⟨runs, hruns⟩ :=
    (Language.chain_runs Turnstile.language 2 hi Turnstile.turn none .void).mp hasked
  refine ⟨w, w', i, runs, hi, hnone, ?_, hruns⟩
  obtain ⟨run, -, -, hrejection⟩ := (hruns.rejected _).mp rfl
  have hlength : runs.length - 1 = 1 := (congrArg Rejection.position hrejection).symm
  rw [List.prefix_iff_eq_take.mp hruns.begins, List.length_map, show runs.length = 2 by omega]

end ProductModel
