import ProductModel.Engine.Creation
import ProductModel.Proofs.Run.Follows

/-!
# Calls and rule chains follow the rules

An engine is lawful when the bodies that it runs follow the rules of a run (`Engine.Lawful`).  Then
so does every call of a method, and every rule chain: while a chain runs, it is one of the things
under way.

The rules of a chain run one after the other.  `Inside` says how far the run has come from one rule
of a chain to a later one: everything that was seen, was seen by one of these rules or by what it
called.
-/

namespace ProductModel

open ProductModel.Action

variable {β τ α : Type} {seen : τ → Watch β} {pending : List Pending} {w : World β τ}

/-- **An engine whose bodies follow the rules of a run.**  The bodies of rules run inside a chain,
and initializers inside the birth of their instance. -/
structure Engine.Lawful (seen : τ → Watch β) (e : Engine β τ) : Prop where
  method : ∀ body call, Follows seen (e.run (e.language.method body call))
  initializer : ∀ body id args {moment pending} {w : World β τ},
    Reachable (.birth id moment :: pending) w.model →
    (∃ i, w.model.arena.get? id = some i ∧ i.order = moment + 1) →
    (e.run (e.language.initializer body ⟨some id, args⟩)).Always w
      (fun _ w' => Inside seen (.birth id moment) pending w w')
      (fun _ w' => Inside seen (.birth id moment) pending w w')
  rule : ∀ body (call : RuleCall) {standing moment pending} {w : World β τ},
    Reachable (.chain call.subject standing moment :: pending) w.model →
    (e.run (e.language.rule body call)).Always w
      (fun _ w' => Inside seen (.chain call.subject standing moment) pending w w')
      (fun _ w' => Inside seen (.chain call.subject standing moment) pending w w')
  evaluate : ∀ body id key, Follows seen (e.run (e.language.evaluate body id key))
  inspect : ∀ body id, Follows (fun s : τ × ProblemLog => seen s.1)
    (Inspection.run (e.language.inspect body id))
  transformed : ∀ body position rotation s,
    seen (e.language.transformed body position rotation s) = seen s

/-! ## Attributes and methods -/

theorem follows_resolve (id : InstanceId) (name : Symbol) :
    Follows seen (resolve id name : Action β τ (Attribute β)) := by
  unfold resolve
  refine (Follows.find id).bind fun i => Follows.model.bind fun m => ?_
  split
  · exact .pure _
  · split
    · exact .pure _
    · split
      · exact .pure _
      · refine (Follows.findMethod i.type name).bind fun found => ?_
        split
        · exact .pure _
        · exact .describe_throw _ _

theorem follows_getAttr (id : InstanceId) (name : Symbol) :
    Follows seen (getAttr id name : Action β τ Value) := by
  unfold getAttr
  refine (follows_resolve id name).bind fun a => ?_
  split
  · exact .pure _
  · exact .throw _

theorem follows_notAMethod (id : InstanceId) (name : Symbol) :
    Follows seen (notAMethod id name : Action β τ α) := by
  unfold notAMethod
  exact (follows_resolve id name).bind fun _ => .throw _

/-- **The check of a call** changes nothing. -/
theorem checkCall_always (m : Method β) (receiver : Option InstanceId) (args : List Value) :
    (checkCall m receiver args : Action β τ Unit).Always w (fun _ w' => w' = w)
      (fun _ w' => w' = w) := by
  have hreceiver : (if !m.isStatic && receiver.isNone then
      throw (.dispatch (.missingReceiver m.name.label)) else pure () : Action β τ Unit).Always w
        (fun _ w' => w' = w) (fun _ w' => w' = w) := by
    split
    · exact (always_throw _).mpr rfl
    · exact (always_pure _).mpr rfl
  unfold checkCall
  dsimp only
  split
  · split
    · rw [always_bind, always_throw]
    · exact hreceiver
  · exact hreceiver

theorem follows_checkCall (m : Method β) (receiver : Option InstanceId) (args : List Value) :
    Follows seen (checkCall m receiver args : Action β τ Unit) := by
  refine ⟨fun {pending w} hw => Always.mono (checkCall_always m receiver args) ?_ ?_⟩
  · rintro _ _ rfl
    exact ⟨.refl hw, True.intro⟩
  · rintro _ _ rfl
    exact .refl hw

namespace Engine.Lawful

variable {e : Engine β τ} (h : e.Lawful seen)
include h

theorem invoke (m : Method β) (receiver : Option InstanceId) (args : List Value) :
    Follows seen (e.invoke m receiver args) := by
  unfold Engine.invoke
  exact (follows_checkCall m receiver args).bind fun _ => h.method _ _

theorem call (id : InstanceId) (name : Symbol) (args : List Value) :
    Follows seen (e.call id name args) := by
  unfold Engine.call
  refine (Follows.typeOf id).bind fun type => (Follows.findMethod type name).bind fun found => ?_
  split
  · exact h.invoke _ _ _
  · exact follows_notAMethod _ _

theorem callStatic (typeName : String) (name : Symbol) (args : List Value) :
    Follows seen (e.callStatic typeName name args) := by
  unfold Engine.callStatic
  refine (Follows.ask _).bind fun type => (Follows.findMethod type name).bind fun found => ?_
  split
  · exact h.invoke _ _ _
  · exact .throw _

theorem callSuper (typeName : String) (id : InstanceId) (name : Symbol) (args : List Value) :
    Follows seen (e.callSuper typeName id name args) := by
  unfold Engine.callSuper
  refine (Follows.ask _).bind fun type => Follows.model.bind fun m => ?_
  split
  · exact .throw _
  · refine (Follows.findMethod _ name).bind fun found => ?_
    split
    · exact h.invoke _ _ _
    · exact Follows.model.bind fun _ => .throw _

theorem callSuperIfAny (typeName : String) (id : InstanceId) (name : Symbol)
    (args : List Value) : Follows seen (e.callSuperIfAny typeName id name args) := by
  unfold Engine.callSuperIfAny
  refine (Follows.ask _).bind fun type => Follows.model.bind fun m => ?_
  split
  · exact .pure _
  · refine (Follows.findMethod _ name).bind fun found => ?_
    split
    · exact h.invoke _ _ _
    · exact .pure _

theorem evalBinary (a : Value) (op : BinaryOp) (b : Value) :
    Follows seen (e.evalBinary a op b) := by
  unfold Engine.evalBinary
  split
  · exact .pure _
  · split
    · refine (Follows.typeOf _).bind fun type => Follows.model.bind fun m => ?_
      split
      · exact h.invoke _ _ _
      · exact .ofExcept _
    · exact .ofExcept _

/-! ## Rule chains -/

/-- **The rules of a chain in turn**, until one rejects or fails. -/
theorem runLinks_always {x : InstanceId} {standing : Standing} {moment : Nat} (reason : Symbol)
    (arg : Value) (position : Nat) (links : List (ChainLink β))
    (hw : Reachable (.chain x standing moment :: pending) w.model) :
    (e.runLinks x reason arg position links).Always w
      (fun _ w' => Inside seen (.chain x standing moment) pending w w')
      (fun _ w' => Inside seen (.chain x standing moment) pending w w') := by
  induction links generalizing position w with
  | nil => exact (always_pure _).mpr (.refl hw)
  | cons link links ih =>
    unfold Engine.runLinks
    refine (always_bind _ _).mpr (Always.mono
      (h.rule link.rule.body ⟨x, reason, link.rule.argument arg, link.definingType⟩ hw) ?_
      fun _ _ hr => hr)
    intro verdict w₁ hrule
    cases verdict with
    | accept =>
      exact Always.mono (ih (position + 1) hrule.reachable) (fun _ _ hr => hrule.trans hr)
        fun _ _ hr => hrule.trans hr
    | reject => exact (always_bind _ _).mpr (always_model.mpr ((always_pure _).mpr hrule))

end Engine.Lawful

/-- **What a rule chain leaves of its subject.** -/
structure Stood (seen : τ → Watch β) (x : InstanceId) (i : Instance β) (w w' : World β τ) :
    Prop where
  /-- at the end, the subject stands as it stood, and is as busy as it was -/
  after : ∃ j, w'.model.arena.get? x = some j ∧ j.standing = i.standing ∧ j.busy = i.busy
  /-- in everything seen meanwhile, it stands as it stood, and is busier -/
  meanwhile : ∃ ss, (seen w'.host).sights = (seen w.host).sights ++ ss ∧
    ∀ s ∈ ss, ∃ j, s.model.arena.get? x = some j ∧ j.standing = i.standing ∧ i.busy < j.busy

theorem Stood.refl {x : InstanceId} {i : Instance β} (hi : w.model.arena.get? x = some i) :
    Stood seen x i w w := by
  refine ⟨⟨i, hi, rfl, rfl⟩, [], (List.append_nil _).symm, ?_⟩
  intro s hs
  cases hs

section Bracket

variable {x : InstanceId} {i : Instance β} {w' : World β τ}

/-- The world in which a chain has begun. -/
def World.entering (w : World β τ) (x : InstanceId) : World β τ :=
  { w with model := w.model.entering x }

/-- The world in which a chain has ended. -/
def World.leaving (w : World β τ) (x : InstanceId) : World β τ :=
  { w with model := w.model.leaving x }

/-- **From the beginning of a chain to its end** is a stretch of the run around it. -/
theorem reached_of_chain (hw : Reachable pending w.model)
    (h : Inside seen (.chain x i.standing w.model.arena.lastOrder) pending (w.entering x) w') :
    Reached seen pending w (w'.leaving x) := by
  have hstart := careful_modify hw.sound.coherent x
    (f := fun i => { i with busy := i.busy + 1 }) fun _ => rfl
  have hend := careful_modify h.reachable.sound.coherent x
    (f := fun i => { i with busy := i.busy - 1 }) fun _ => rfl
  exact h.reached hstart.aged (.modify _ x fun _ => rfl) h.reachable.leave hend.aged
    (.modify _ x fun _ => rfl) rfl rfl rfl rfl

/-- **From its beginning to its end a chain protects its subject.** -/
theorem stood_of_chain (hw : Reachable pending w.model) (hi : w.model.arena.get? x = some i)
    (h : Inside seen (.chain x i.standing w.model.arena.lastOrder) pending (w.entering x) w') :
    Stood seen x i w (w'.leaving x) := by
  constructor
  · obtain ⟨-, j, hj, hstanding, -⟩ := h.reachable.sound.held _ List.mem_cons_self
    have hafter : (w'.leaving x).model.arena.get? x = some { j with busy := j.busy - 1 } := by
      show (w'.model.arena.modify x _).get? x = _
      rw [Arena.get?_modify_self, hj]
      rfl
    refine ⟨_, hafter, hstanding, ?_⟩
    rw [← Model.busyOf_eq hafter, ← Model.busyOf_eq hi, hw.sound.busy]
    exact h.reachable.sound.leave.busy x
  · obtain ⟨ss, heq, hss⟩ := h.noted
    refine ⟨ss, heq, ?_⟩
    intro s hs
    obtain ⟨inner, hinner, -⟩ := hss s hs
    have hsound := hinner.sound
    obtain ⟨-, j, hj, hstanding, -⟩ :=
      hsound.held _ (List.mem_append_right inner List.mem_cons_self)
    refine ⟨j, hj, hstanding, ?_⟩
    rw [← Model.busyOf_eq hj, ← Model.busyOf_eq hi, hsound.busy, hw.sound.busy]
    -- The chain itself is one more than those around it.
    have hcount : chainsOn (inner ++ .chain x i.standing w.model.arena.lastOrder :: pending) x =
        chainsOn inner x + (chainsOn pending x + 1) := by
      unfold chainsOn
      rw [List.countP_append, List.countP_cons_of_pos (by simp [Pending.isChainOn])]
    omega

end Bracket

namespace Engine.Lawful

variable {e : Engine β τ} (h : e.Lawful seen)
include h

/-- **A rule chain** follows the rules of a run and protects its subject, however it ends. -/
theorem callRules_always (x : InstanceId) (reason : Symbol) (phase : Option RuleKind)
    (arg : Value) (hw : Reachable pending w.model) :
    (e.callRules x reason phase arg).Always w
      (fun _ w' => Reached seen pending w w' ∧
        ∀ i, w.model.arena.get? x = some i → Stood seen x i w w')
      (fun _ w' => Reached seen pending w w' ∧
        ∀ i, w.model.arena.get? x = some i → Stood seen x i w w') := by
  unfold Engine.callRules
  rw [always_bind, always_typeOf]
  constructor
  · intro i hi
    rw [always_bind, always_model]
    generalize w.model.types.ruleChain i.type reason phase = chain
    split
    · exact (always_pure _).mpr ⟨.refl hw, fun _ hi' => .refl hi'⟩
    · rw [always_bind, always_updateIfThere, always_bind, always_attempt]
      -- The chain is left in the same way whether its links pass or fail.
      have hrun := h.runLinks_always reason arg 0 chain (w := w.entering x) (hw.enter hi)
      have hend : ∀ (r : Except ModelError ChainOutcome) (w' : World β τ),
          Inside seen (.chain x i.standing w.model.arena.lastOrder) pending (w.entering x) w' →
          (do updateIfThere x fun i => { i with busy := i.busy - 1 }
              Action.ofExcept r : Action β τ ChainOutcome).Always w'
            (fun _ w' => Reached seen pending w w' ∧
              ∀ i, w.model.arena.get? x = some i → Stood seen x i w w')
            (fun _ w' => Reached seen pending w w' ∧
              ∀ i, w.model.arena.get? x = some i → Stood seen x i w w') := by
        intro r w' hchain
        have hall : Reached seen pending w (w'.leaving x) ∧
            ∀ i, w.model.arena.get? x = some i → Stood seen x i w (w'.leaving x) := by
          refine ⟨reached_of_chain hw hchain, ?_⟩
          intro i' hi'
          rw [hi] at hi'
          cases hi'
          exact stood_of_chain hw hi hchain
        rw [always_bind, always_updateIfThere, always_ofExcept]
        exact ⟨fun _ _ => hall, fun _ _ => hall⟩
      exact Always.mono hrun (fun r w' hr => hend (.ok r) w' hr) fun err w' hr =>
        hend (.error err) w' hr
  · intro hnone
    refine ⟨.refl hw, ?_⟩
    intro i hi
    rw [hnone] at hi
    cases hi

theorem callRules_leads (x : InstanceId) (reason : Symbol) (phase : Option RuleKind)
    (arg : Value) (hw : Reachable pending w.model) :
    Leads seen pending (e.callRules x reason phase arg) w fun _ w' =>
      ∀ i, w.model.arena.get? x = some i → Stood seen x i w w' :=
  Always.mono (h.callRules_always x reason phase arg hw) (fun _ _ hr => hr) fun _ _ hr => hr.1

theorem callRules (x : InstanceId) (reason : Symbol) (phase : Option RuleKind) (arg : Value) :
    Follows seen (e.callRules x reason phase arg) :=
  ⟨fun hw => (h.callRules_leads x reason phase arg hw).trivial⟩

end Engine.Lawful

end ProductModel
