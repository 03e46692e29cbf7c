import ProductModel.Proofs.Run.Bodies
import ProductModel.Showroom

/-!
# Rule chains protect their subjects

While a rule chain runs on an instance, bodies can do what they like through the operations, and yet
the instance stays where it is and what it is.  This rests on checks in eight operations, and on the
fact that what the others change without a check is never a subject of a chain.

`Language.chains_protect` says it three times over:

* of what comes into view in a run: every rule at work has its subject as it was when the rule began
  (`Sight.Guarded`), so that an instance is busy exactly as long as rules are at work on it;
* of the worlds at the ends of runs: no instance is busy there;
* of a chain in any state of a run: whichever operation runs it, and whether it passes, is rejected
  or fails, its subject is protected from the first rule to the end (`ChainsProtect`).
-/

namespace ProductModel

variable {β σ α : Type}

/-- **What a sight shows of the rules at work.** -/
structure Sight.Guarded (s : Sight β) : Prop where
  /-- the subject of a rule is there and stands as it stood when the rule began -/
  subject : ∀ rule ∈ s.rules, ∃ j, s.model.arena.get? rule.subject = some j ∧
    rule.standing = some j.standing
  /-- an instance is as busy as there are rules at work on it -/
  busy : ∀ x, s.model.busyOf x = s.rules.countP (·.subject == x)

/-- **What chains guarantee in a world**: for the engine that runs the bodies of a language, nested
at most `allowance` deep. -/
structure ChainsProtect (L : Language β σ) (allowance : Nat) (w : World β (σ × Watch β)) :
    Prop where
  /-- however a chain ends, its subject stands at the end as it stood, and as busy as it was; and it
  stood so in all that came into view meanwhile -/
  chain : ∀ {x i}, w.model.arena.get? x = some i → ∀ reason phase arg {r w'},
    ((L.watched.engine allowance).callRules x reason phase arg).outcome w = some (r, w') →
      Stood noted x i w w'
  /-- what is a child of the subject is still there at the end, as when its removal is voted on -/
  child : ∀ {x c}, c ∈ w.model.arena.childrenOf x → ∀ reason phase arg {r w'},
    ((L.watched.engine allowance).callRules x reason phase arg).outcome w = some (r, w') →
      ∃ j, w'.model.arena.get? c = some j ∧ j.father = some x
  /-- an operation leaves every instance as busy as it was, or absent if it was idle -/
  operation : ∀ op {r w'}, (perform L.watched allowance op).outcome w = some (r, w') →
    ∀ x, w'.model.busyOf x = w.model.busyOf x

/-- The rules at work among what is under way: one in each chain. -/
def rulesAtWork (pending : List Pending) : List RuleAtWork :=
  (pending.map Pending.work).filterMap (·.rule?)

/-- There is one rule at work in every chain. -/
theorem chainsOn_eq_countP (pending : List Pending) (x : InstanceId) :
    chainsOn pending x = (rulesAtWork pending).countP (·.subject == x) := by
  induction pending with
  | nil => rfl
  | cons p pending ih =>
    rw [chainsOn_cons, ih]
    cases p with
    | chain subject standing moment =>
      show _ = List.countP _ (⟨subject, some standing⟩ :: rulesAtWork pending)
      rw [List.countP_cons]
      rfl
    | birth id moment => rfl

theorem Reachable.guarded {pending : List Pending} {s : Sight β}
    (h : Reachable pending s.model) (hwork : s.work = pending.map Pending.work) : s.Guarded := by
  have hrules : s.rules = rulesAtWork pending := by
    rw [Sight.rules, hwork]
    rfl
  refine ⟨?_, ?_⟩
  · intro rule hrule
    rw [hrules, rulesAtWork, List.mem_filterMap] at hrule
    obtain ⟨work, hwork, heq⟩ := hrule
    obtain ⟨p, hp, rfl⟩ := List.mem_map.mp hwork
    cases p with
    | birth id moment => cases heq
    | chain subject standing moment =>
      cases heq
      obtain ⟨-, j, hj, hstanding, -⟩ := h.sound.held _ hp
      exact ⟨j, hj, by rw [hstanding]⟩
  · intro x
    rw [h.sound.busy, chainsOn_eq_countP, hrules]

theorem Reachable.chainsProtect {pending : List Pending} {w : World β (σ × Watch β)}
    (hw : Reachable pending w.model) (L : Language β σ) (allowance : Nat) :
    ChainsProtect L allowance w := by
  have hlawful := L.lawful_watched allowance
  have hall : ∀ x reason phase arg {r w'},
      ((L.watched.engine allowance).callRules x reason phase arg).outcome w = some (r, w') →
      Reached noted pending w w' ∧
        ∀ i, w.model.arena.get? x = some i → Stood noted x i w w' := by
    intro x reason phase arg r w' hr
    have hend := hlawful.callRules_always x reason phase arg hw r w' hr
    cases r <;> exact hend
  refine ⟨fun hi reason phase arg _ _ hr => (hall _ reason phase arg hr).2 _ hi, ?_, ?_⟩
  · intro x c hc reason phase arg r w' hr
    obtain ⟨hreached, hstood⟩ := hall x reason phase arg hr
    obtain ⟨i, hi, hmem⟩ := Arena.exists_get?_of_mem_childrenOf hc
    obtain ⟨j, hj, hstanding, -⟩ := (hstood i hi).after
    have hchildren := (Instance.standing_eq hstanding).2.2.2.1
    exact hreached.sound.coherent.forest.child hj (by rw [hchildren]; exact hmem)
  · intro op r w' hr x
    have hreached := (follows_perform L allowance op).reached hw hr
    rw [hreached.sound.busy, hw.sound.busy]

/-- **Rule chains protect their subjects**, in every run of every language, at any depth of
nesting. -/
theorem Language.chains_protect (L : Language β σ) (allowance : Nat) :
    (∀ {α : Type} {p : Body β σ α} {config host s}, p.Sighted L allowance config host s →
      s.Guarded ∧ ∃ pending, Reachable pending s.model) ∧
    (∀ {α : Type} {p : Body β σ α} {config host r w},
      p.watchedRun L allowance config host = some (r, w) →
        (∀ x, w.model.busyOf x = 0) ∧ Reachable [] w.model) ∧
    ∀ {pending} {w : World β (σ × Watch β)}, Reachable pending w.model →
      ChainsProtect L allowance w := by
  refine ⟨?_, ?_, fun hw => hw.chainsProtect L allowance⟩
  · intro α p config host s hs
    obtain ⟨pending, hreach, hwork⟩ := hs.reachable
    exact ⟨hreach.guarded hwork, pending, hreach⟩
  · intro α p config host r w hrun
    have hend := (Body.reached_watchedRun hrun).reachable
    exact ⟨hend.sound.busy, hend⟩

/-- While a showroom is built, a rule is at work on the cabinet.  When it is built, the cabinet can
be asked about the removal of its shelf, and stands afterwards as it stood. -/
theorem Language.chains_protect_showroom :
    (∃ s, (Showroom.build id 1).Sighted (Showroom.language (σ := Unit)) 6 {} () s ∧
      s.rules.map (·.subject) = [⟨1, 0⟩] ∧ s.Guarded) ∧
    ∃ r w, (Showroom.build id 1).watchedRun (Showroom.language (σ := Unit)) 6 {} () = some (r, w) ∧
      (∀ x, w.model.busyOf x = 0) ∧ ∃ i r' w', w.model.arena.get? ⟨1, 0⟩ = some i ∧
        (((Showroom.language (σ := Unit)).watched.engine 6).callRules ⟨1, 0⟩
          Reason.removeElement.symbol none (.ref ⟨2, 0⟩)).outcome w = some (r', w') ∧
        Stood noted ⟨1, 0⟩ i w w' := by
  obtain ⟨hsights, hends, hchains⟩ :=
    Language.chains_protect (Showroom.language (σ := Unit)) 6
  constructor
  · obtain ⟨s, hs, htest⟩ := (Showroom.build id 1).exists_sighted
      (Showroom.language (σ := Unit)) 6 {} ()
      (fun s => s.rules.map (·.subject) == [⟨1, 0⟩]) (by decide +kernel)
    exact ⟨s, hs, beq_iff_eq.mp htest, (hsights hs).1⟩
  · have hrun : ((Showroom.build id 1).watchedRun (Showroom.language (σ := Unit)) 6 {} ()).any
        (fun run => run.2.model.arena.contains ⟨1, 0⟩ &&
          ((((Showroom.language (σ := Unit)).watched.engine 6).callRules ⟨1, 0⟩
            Reason.removeElement.symbol none (.ref ⟨2, 0⟩)).outcome run.2).isSome) = true := by
      decide +kernel
    obtain ⟨⟨r, w⟩, hw, htest⟩ := (Option.any_eq_true _ _).mp hrun
    obtain ⟨hthere, hchain⟩ := (Bool.and_eq_true _ _).mp htest
    obtain ⟨i, hi⟩ := Arena.contains_eq_true_iff.mp hthere
    obtain ⟨⟨r', w'⟩, hr⟩ := Option.isSome_iff_exists.mp hchain
    obtain ⟨hidle, hreach⟩ := hends hw
    exact ⟨r, w, hw, hidle, i, r', w', hi, hr, (hchains hreach).chain hi _ _ _ hr⟩

end ProductModel
