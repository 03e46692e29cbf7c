import ProductModel.Proofs.Run.Alike
import ProductModel.Proofs.Run.Bodies

/-!
# The cache of method lookups goes unnoticed

A world can remember method lookups or not.  In both cases a lookup finds what the registry finds
(`World.Truthful`), so two worlds that are otherwise the same stay so, whatever is done with them
(`Likeness.ofLookups`).  `Language.cache_unnoticed` says so for sessions: sequences of operations
from outside, whose bodies may perform all operations in turn, and change types while lookups of
before are remembered.

## Design

The counters of the cache can be asked for.  They differ, and nothing else does, as long as no body
makes them part of something else: `Body.Indifferent` says of a body that it goes on in the same
way, whatever has been counted.  A body that never asks is indifferent.
-/

namespace ProductModel

open ProductModel.Action

variable {β τ σ α γ : Type}

/-! ## Worlds that remember lookups, and worlds that do not -/

/-- **A world whose lookups find what the registry finds.** -/
def World.Truthful (w : World β σ) : Prop :=
  w.config.dispatchCache = true → w.cache.Sound w.model.types

namespace World.Truthful

variable {w : World β σ}

theorem finds_eq (h : w.Truthful) (type : TypeId) (name : Symbol) :
    w.finds type name = w.model.types.findMethod type name := by
  unfold World.finds
  split
  · rename_i hcache
    exact (h hcache).lookup_eq type name
  · rfl

theorem lookingUp (h : w.Truthful) (type : TypeId) (name : Symbol) :
    (w.lookingUp type name).Truthful := by
  unfold World.lookingUp
  split
  · rename_i hcache
    exact fun _ => (h hcache).lookup type name
  · exact h

/-- A change of the types begins a new epoch, in which nothing that is remembered counts. -/
theorem edited (h : w.Truthful) {m : Model β}
    (hm : m.types = w.model.types ∨ w.model.types.epoch < m.types.epoch) :
    World.Truthful { w with model := m } := by
  intro hcache
  rcases hm with hsame | hlater
  · show w.cache.Sound m.types
    rw [hsame]
    exact h hcache
  · exact (h hcache).later hlater

end World.Truthful

/-- **Worlds that are the same but for how they look methods up.** -/
structure World.Agree (w v : World β σ) : Prop where
  model : v.model = w.model
  host : v.host = w.host
  validates : v.config.validateProperties = w.config.validateProperties
  left : w.Truthful
  right : v.Truthful

/-- Worlds are alike if they are the same but for how they look methods up. -/
def Likeness.ofLookups : Likeness β σ σ where
  Rel := World.Agree
  model h := h.model
  validates h := h.validates
  edited m h hm := ⟨rfl, h.host, h.validates, h.left.edited hm, h.right.edited (h.model ▸ hm)⟩
  finds type name h := by
    rw [h.left.finds_eq, h.right.finds_eq, h.model]
  lookingUp type name h := by
    refine ⟨?_, ?_, ?_, h.left.lookingUp type name, h.right.lookingUp type name⟩
    · simp only [World.model_lookingUp, h.model]
    · simp only [World.host_lookingUp, h.host]
    · simp only [World.config_lookingUp, h.validates]

/-! ## What is counted -/

/-- The counts of a world without those of its cache. -/
def WorldInfo.withoutStats (i : WorldInfo) : WorldInfo := { i with cache := ⟨0, 0, 0⟩ }

/-- **An answer without what the cache has counted.** -/
def Op.withoutStats : (op : Op β) → Except ModelError op.Answer → Except ModelError op.Answer
  | .info, r => r.map WorldInfo.withoutStats
  | _, r => r

/-- **A body that goes on in the same way**, whatever the cache has counted. -/
def Body.Indifferent : Body β σ α → Prop
  | .pure _ => True
  | .fail _ => True
  | .perform op next => (∀ r r', op.withoutStats r = op.withoutStats r' → next r = next r') ∧
      ∀ r, Body.Indifferent (next r)
  | .look next => ∀ m s, Body.Indifferent (next m s)
  | .put _ next => Body.Indifferent next

/-- **A language all of whose bodies are indifferent** to what the cache has counted.  Checks of
types cannot ask for it. -/
structure Language.Indifferent (L : Language β σ) : Prop where
  method : ∀ body call, (L.method body call).Indifferent
  initializer : ∀ body call, (L.initializer body call).Indifferent
  rule : ∀ body call, (L.rule body call).Indifferent
  evaluate : ∀ body id key, (L.evaluate body id key).Indifferent

/-- Only the question about the counts is answered with them. -/
theorem Op.withoutStats_of_ne {op : Op β} (hop : op ≠ .info) (r : Except ModelError op.Answer) :
    op.withoutStats r = r := by
  cases op
  case info => exact absurd rfl hop
  all_goals rfl

namespace Body.Indifferent

/-- A body may use the answer of any other operation. -/
theorem perform {op : Op β} (hop : op ≠ .info)
    {next : Except ModelError op.Answer → Body β σ α} (h : ∀ r, (next r).Indifferent) :
    Body.Indifferent (.perform op next) := by
  refine ⟨?_, h⟩
  intro r r' heq
  rw [Op.withoutStats_of_ne hop, Op.withoutStats_of_ne hop] at heq
  rw [heq]

theorem ofExcept (r : Except ModelError α) :
    Body.Indifferent (Program.ofExcept r : Body β σ α) := by
  cases r <;> exact True.intro

theorem call {op : Op β} (hop : op ≠ .info) :
    Body.Indifferent (Program.call op : Body β σ op.Answer) :=
  .perform hop .ofExcept

theorem bind {p : Body β σ γ} {f : γ → Body β σ α} (hp : p.Indifferent)
    (hf : ∀ a, (f a).Indifferent) : Body.Indifferent (p >>= f) := by
  induction p with
  | pure a => exact hf a
  | fail err => exact True.intro
  | perform op next ih =>
    refine ⟨?_, fun r => ih r (hp.2 r)⟩
    intro r r' heq
    show (next r).bind f = (next r').bind f
    rw [hp.1 r r' heq]
  | look next ih => exact fun m s => ih m s (hp m s)
  | put s next ih => exact ih hp

end Body.Indifferent

/-! ## Runs that agree -/

/-- **An operation with the same outcomes** in worlds that agree, but for what is counted. -/
structure MirrorsOp (op : Op β) (x y : Action β σ op.Answer) : Prop where
  matched : ∀ {w v : World β σ}, w.Agree v →
    Matched .ofLookups (fun r r' => op.withoutStats r = op.withoutStats r')
      (x.outcome w) (y.outcome v)

theorem Mirrors.mirrorsOp {op : Op β} {x y : Action β σ op.Answer}
    (h : Mirrors .ofLookups x y) : MirrorsOp op x y :=
  ⟨fun hwv => (h.matched hwv).mono fun _ _ => congrArg op.withoutStats⟩

section Run

variable {handler handler' : (op : Op β) → Action β σ op.Answer}

/-- **An indifferent body has the same outcomes** in worlds that agree, if the operations have that
it performs. -/
theorem Body.Indifferent.mirrors (hhandler : ∀ op, MirrorsOp op (handler op) (handler' op))
    {p : Body β σ α} (hp : p.Indifferent) :
    Mirrors .ofLookups (p.run handler) (p.run handler') := by
  induction p with
  | pure a => exact .pure a
  | fail err => exact .throw err
  | perform op next ih =>
    obtain ⟨hsame, hnext⟩ := hp
    constructor
    intro w v hwv
    rw [Program.run, Program.run, outcome_bind, outcome_bind, outcome_attempt, outcome_attempt]
    have hmatched := (hhandler op).matched hwv
    revert hmatched
    generalize (handler op).outcome w = out, (handler' op).outcome v = out'
    rintro (_ | ⟨hr, hwv'⟩)
    · exact .none
    · -- The answers may differ in what is counted, and the body goes on in the same way.
      rename_i r r' _ _
      have hgoes := hsame r r' hr
      show Matched .ofLookups Eq (((next r).run handler).outcome _)
        (((next r').run handler').outcome _)
      rw [← hgoes]
      exact (ih r (hnext r)).matched hwv'
  | look next ih =>
    constructor
    intro w v hwv
    show Matched .ofLookups Eq (((next w.model w.host).run handler).outcome w)
      (((next v.model v.host).run handler').outcome v)
    rw [hwv.model, hwv.host]
    exact (ih _ _ (hp _ _)).matched hwv
  | put s next ih =>
    constructor
    intro w v hwv
    exact (ih hp).matched (w := { w with host := s }) (v := { v with host := s })
      ⟨hwv.model, rfl, hwv.validates, hwv.left, hwv.right⟩

end Run

/-- **A check of a type has the same outcomes** in worlds that agree. -/
theorem mirrors_inspection_ofLookups (p : Inspection β σ Unit) :
    Mirrors (Likeness.ofLookups (β := β) (σ := σ)).besideLog (Inspection.run p)
      (Inspection.run p) := by
  induction p with
  | pure a => exact .pure _
  | fail err => exact .pure _
  | perform op next ih => exact (Mirrors.inspectHandler op).attempt.bind fun r => ih r
  | look next ih =>
    constructor
    intro w v hwv
    show Matched _ Eq ((Inspection.run (next w.model w.host.1)).outcome w)
      ((Inspection.run (next v.model v.host.1)).outcome v)
    rw [show v.model = w.model from hwv.1.model, show v.host.1 = w.host.1 from hwv.1.host]
    exact (ih _ _).matched hwv
  | put s next ih =>
    constructor
    intro w v hwv
    exact ih.matched (w := { w with host := (s, w.host.2) })
      (v := { v with host := (s, v.host.2) })
      ⟨⟨hwv.1.model, rfl, hwv.1.validates, hwv.1.left, hwv.1.right⟩, hwv.2⟩

variable {L : Language β σ}

theorem Language.Indifferent.alike (hL : L.Indifferent) {allowance : Nat}
    (h : ∀ op, MirrorsOp op (perform L allowance op) (perform L allowance op)) :
    Engine.Alike .ofLookups (L.engine allowance) (L.engine allowance) where
  method body call := (hL.method body call).mirrors h
  initializer body call := (hL.initializer body call).mirrors h
  rule body call := (hL.rule body call).mirrors h
  evaluate body id key := (hL.evaluate body id key).mirrors h
  inspect body id := mirrors_inspection_ofLookups (L.inspect body id)
  transformed body position rotation _ _ hwv :=
    ⟨hwv.model, congrArg (L.transformed body position rotation) hwv.host, hwv.validates, hwv.left,
      hwv.right⟩

/-- **Every operation has the same outcomes** in worlds that agree, but for what is counted, however
deep its bodies are nested. -/
theorem Language.Indifferent.mirrors_perform (hL : L.Indifferent) (allowance : Nat) (op : Op β) :
    MirrorsOp op (perform L allowance op) (perform L allowance op) := by
  induction allowance generalizing op with
  | zero => exact Mirrors.exhausted.mirrorsOp
  | succ allowance ih =>
    by_cases hop : op = .info
    · -- The counts that are not of the cache are those of the model.
      subst hop
      constructor
      intro w v hwv
      refine .some ?_ hwv
      show Except.ok w.info.withoutStats = Except.ok v.info.withoutStats
      rw [World.info, World.info, hwv.model]
      rfl
    · exact ((hL.alike ih).step op hop).mirrorsOp

/-! ## Sessions -/

/-- **What is seen of an operation from outside**: its result or error, and the model afterwards. -/
structure Report (β : Type) where
  op : Op β
  answer : Except ModelError op.Answer
  model : Model β

/-- A report without what the cache has counted. -/
def Report.withoutStats (r : Report β) : Report β := { r with answer := r.op.withoutStats r.answer }

/-- **A session**: operations from outside, one after the other, whether they succeed or fail. -/
def Language.session (L : Language β σ) (allowance : Nat) :
    List (Op β) → World β σ → Option (List (Report β) × World β σ)
  | [], w => some ([], w)
  | op :: ops, w =>
    match (perform L allowance op).outcome w with
    | none => none
    | some (answer, w') => (L.session allowance ops w').map fun out =>
        (⟨op, answer, w'.model⟩ :: out.1, out.2)

/-- **What is observed of a session**: what is seen of each step, the model in the end, and the
state of the language in the end; not what the cache has counted. -/
def Language.observed (L : Language β σ) (allowance : Nat) (ops : List (Op β)) (w : World β σ) :
    Option (List (Report β) × Model β × σ) :=
  (L.session allowance ops w).map fun out =>
    (out.1.map Report.withoutStats, out.2.model, out.2.host)

theorem Language.observed_cons (L : Language β σ) (allowance : Nat) (op : Op β) (ops : List (Op β))
    (w : World β σ) : L.observed allowance (op :: ops) w =
      match (perform L allowance op).outcome w with
      | none => none
      | some (answer, w') => (L.observed allowance ops w').map fun out =>
          (Report.withoutStats ⟨op, answer, w'.model⟩ :: out.1, out.2) := by
  unfold Language.observed
  rw [Language.session]
  cases (perform L allowance op).outcome w with
  | none => rfl
  | some run => simp only [Option.map_map, Function.comp_def, List.map_cons]

/-- **The same is observed in worlds that agree.** -/
theorem Language.Indifferent.observed_eq (hL : L.Indifferent) (allowance : Nat) (ops : List (Op β))
    {w v : World β σ} (hwv : w.Agree v) :
    L.observed allowance ops w = L.observed allowance ops v := by
  induction ops generalizing w v with
  | nil =>
    show some ([], w.model, w.host) = some ([], v.model, v.host)
    rw [hwv.model, hwv.host]
  | cons op ops ih =>
    rw [L.observed_cons, L.observed_cons]
    have hmatched := (hL.mirrors_perform allowance op).matched hwv
    revert hmatched
    generalize (perform L allowance op).outcome w = out, (perform L allowance op).outcome v = out'
    rintro (_ | ⟨hr, hwv'⟩)
    · rfl
    · -- The worlds agree after the step, so the rest of the session is observed in the same way.
      rename_i r r' w' v'
      have hreport : Report.withoutStats ⟨op, r, w'.model⟩ =
          Report.withoutStats ⟨op, r', v'.model⟩ := by
        unfold Report.withoutStats
        dsimp only
        rw [hr, show v'.model = w'.model from hwv'.model]
      dsimp only
      rw [ih hwv', hreport]

/-- A world without instances and types, in which no lookup is remembered, is truthful. -/
theorem World.truthful_of_nothing (config : Config) (host : σ) :
    World.Truthful ({ config, host } : World β σ) :=
  fun _ => MethodCache.sound_of_entries_eq rfl

/-- **The cache of method lookups goes unnoticed.**  In every session from nothing the same is
observed with it and without it; and after every history of a registry, a cache answers what the
registry finds, and has counted all lookups. -/
theorem Language.cache_unnoticed (hL : L.Indifferent) :
    (∀ (allowance : Nat) (config : Config) (host : σ) (ops : List (Op β)),
      L.observed allowance ops { config := { config with dispatchCache := true }, host } =
        L.observed allowance ops { config := { config with dispatchCache := false }, host }) ∧
    ∀ uses : List (MethodCache.Use β), MethodCache.Faithful (MethodCache.after uses).1
      (MethodCache.after uses).2 (uses.countP (·.isLookup)) := by
  refine ⟨?_, MethodCache.faithful_after⟩
  intro allowance config host ops
  exact hL.observed_eq allowance ops
    ⟨rfl, rfl, rfl, World.truthful_of_nothing _ host, World.truthful_of_nothing _ host⟩

/-! ## A clock -/

namespace Clock

/-- The bodies of a clock. -/
inductive Code where
  | twelve
  | twentyFour
  | switch

/-- The name of the method that tells how many hours a clock shows. -/
def hours : Symbol := ⟨"hours"⟩

/-- The name of the method that switches all clocks to twenty-four hours. -/
def switch : Symbol := ⟨"switch"⟩

/-- The type of all devices, whose code says how many hours they show. -/
def device (code : Code) : TypeDef Code :=
  { name := "Device", methods := [{ name := hours, body := code }] }

/-- The type of clocks. -/
def clock : TypeDef Code :=
  { name := "Clock", supertype := some "Device", methods := [{ name := switch, body := .switch }] }

/-- The methods of devices and clocks.  Switching changes the type of all devices, and asks the
clock before it ends. -/
def method : Code → MethodCall → Body Code Unit Value
  | .twelve, _ => .pure (.int 12)
  | .twentyFour, _ => .pure (.int 24)
  | .switch, call => do
    let _ ← Program.call (Op.redefine "Device" (device .twentyFour))
    match call.receiver with
    | some id => Program.call (Op.call id hours [])
    | none => .pure .void

/-- **A language in which types change while their methods run.** -/
def language : Language Code Unit where
  method := method
  rule _ _ := .pure .accept
  evaluate _ _ _ := .pure ()
  inspect _ _ := .pure ()
  transformed _ _ _ host := host

/-- Makes a clock, and asks it before, while and after it is switched. -/
def session : List (Op Code) :=
  [.register (device .twelve), .register clock, .instantiate "Clock" none "clock" [],
    .call ⟨0, 0⟩ hours [], .call ⟨0, 0⟩ switch [], .call ⟨0, 0⟩ hours [], .info]

/-- The number that a call came to. -/
def number? : Report Code → Option Int64
  | ⟨.call _ _ _, .ok v, _⟩ => v.toInt?
  | _ => none

theorem indifferent_language : language.Indifferent := by
  have hmethod : ∀ body call, (method body call).Indifferent := by
    intro body call
    cases body with
    | twelve => exact True.intro
    | twentyFour => exact True.intro
    | switch =>
      refine .bind (.call nofun) fun _ => ?_
      cases call.receiver with
      | none => exact True.intro
      | some id => exact .call nofun
  exact ⟨hmethod, hmethod, fun _ _ => True.intro, fun _ _ _ => True.intro⟩

end Clock

/-- A clock shows twenty-four hours as soon as the type above its own has changed, and the cache,
which has known one of the answers, goes unnoticed. -/
theorem Language.cache_unnoticed_clock :
    (∃ out, Clock.language.session 3 Clock.session { config := {}, host := () } = some out ∧
      out.1.filterMap Clock.number? = [12, 24, 24] ∧ out.2.cache.stats.hits = 1) ∧
    Clock.language.observed 3 Clock.session { config := {}, host := () } =
      Clock.language.observed 3 Clock.session
        { config := { dispatchCache := false }, host := () } := by
  constructor
  · have hrun : (Clock.language.session 3 Clock.session { config := {}, host := () }).any
        (fun out => out.1.filterMap Clock.number? == [12, 24, 24] &&
          out.2.cache.stats.hits == 1) = true := by
      decide +kernel
    obtain ⟨out, hout, htest⟩ := (Option.any_eq_true _ _).mp hrun
    obtain ⟨hnumbers, hhits⟩ := (Bool.and_eq_true _ _).mp htest
    exact ⟨out, hout, beq_iff_eq.mp hnumbers, beq_iff_eq.mp hhits⟩
  · exact (Language.cache_unnoticed Clock.indifferent_language).1 3 {} () Clock.session

end ProductModel
