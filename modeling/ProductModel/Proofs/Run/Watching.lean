import ProductModel.Engine.Perform
import ProductModel.Proofs.Run.Reachable

/-!
# Watching a run

What a program can observe is the model at the moments when it has control: before its first step,
after every operation, and at its end.  A watched program notes the model at each of these moments
in a record that it keeps beside its own state; apart from that it does what it did.  Watching a
language watches all of its bodies, so the record of a watched run collects what the caller or any
body, nested to any depth, could observe, in the order in which it came up.

The bodies of rules and of initializers also note when they begin and end.  So every `Sight` tells
which rules and initializations are at work at its moment, how the subject of each rule stood when
the rule began, and which instance each initialization is about.

`Body.Sighted` says of a sight that it came up in a run from nothing.
-/

namespace ProductModel

variable {β σ α : Type}

/-- **A rule at work**: its subject, and how the subject stood when the rule began. -/
structure RuleAtWork where
  subject : InstanceId
  standing : Option Standing

/-- **An initialization at work**: its instance, and the place of the instance in the order of
creation, which no other one has, when the initialization began. -/
structure BirthAtWork where
  id : InstanceId
  order : Option Nat

/-- **A body at work**, the beginning of which is noted. -/
inductive AtWork where
  | rule (r : RuleAtWork)
  | birth (b : BirthAtWork)

namespace AtWork

/-- The rule, if it is one. -/
def rule? : AtWork → Option RuleAtWork
  | rule r => some r
  | birth _ => none

/-- The initialization, if it is one. -/
def birth? : AtWork → Option BirthAtWork
  | rule _ => none
  | birth b => some b

/-- A rule that begins now. -/
def ruleOn (subject : InstanceId) (m : Model β) : AtWork :=
  .rule ⟨subject, (m.arena.get? subject).map Instance.standing⟩

/-- An initialization that begins now. -/
def birthOf (id : InstanceId) (m : Model β) : AtWork :=
  .birth ⟨id, (m.arena.get? id).map (·.order)⟩

end AtWork

/-- **What a program sees** at a moment at which it has control. -/
structure Sight (β : Type) where
  model : Model β
  /-- the rules and initializations whose bodies have begun and not ended, the innermost first -/
  work : List AtWork

/-- The rules whose bodies have begun and not ended, the innermost first. -/
def Sight.rules (s : Sight β) : List RuleAtWork := s.work.filterMap (·.rule?)

/-- The initializations whose bodies have begun and not ended, the innermost first. -/
def Sight.births (s : Sight β) : List BirthAtWork := s.work.filterMap (·.birth?)

/-- **The record of a watched run.** -/
structure Watch (β : Type) where
  work : List AtWork := []
  sights : List (Sight β) := []

namespace Watch

/-- Notes what is in view. -/
def note (t : Watch β) (m : Model β) : Watch β := { t with sights := t.sights ++ [⟨m, t.work⟩] }

/-- Notes that a body begins. -/
def begin (t : Watch β) (a : AtWork) : Watch β := { t with work := a :: t.work }

/-- Notes that the innermost body ends. -/
def finish (t : Watch β) : Watch β := { t with work := t.work.tail }

end Watch

namespace Program

variable {ω : Type} {ans : ω → Type} {ε : Type}

/-- Notes what is in view and goes on. -/
def noting (p : Program ω ans (Model β) (σ × Watch β) ε α) :
    Program ω ans (Model β) (σ × Watch β) ε α :=
  .look fun m s => .put (s.1, s.2.note m) p

/-- **The program that notes what is in view** whenever it has control. -/
def watched : Program ω ans (Model β) σ ε α → Program ω ans (Model β) (σ × Watch β) ε α
  | .pure a => noting (.pure a)
  | .fail e => noting (.fail e)
  | .perform op next => noting (.perform op fun r => (next r).watched)
  | .look next => noting (.look fun m s => (next m s.1).watched)
  | .put s next => noting (.look fun _ t => .put (s, t.2) next.watched)

/-- Notes the end of a body when the program ends, in whatever way. -/
def finishing : Program ω ans (Model β) (σ × Watch β) ε α →
    Program ω ans (Model β) (σ × Watch β) ε α
  | .pure a => .look fun _ s => .put (s.1, s.2.finish) (.pure a)
  | .fail e => .look fun _ s => .put (s.1, s.2.finish) (.fail e)
  | .perform op next => .perform op fun r => (next r).finishing
  | .look next => .look fun m s => (next m s).finishing
  | .put s next => .put s next.finishing

/-- **A body that also notes its beginning and its end.** -/
def watchedAs (work : Model β → AtWork) (p : Program ω ans (Model β) σ ε α) :
    Program ω ans (Model β) (σ × Watch β) ε α :=
  .look fun m s => .put (s.1, s.2.begin (work m)) p.watched.finishing

end Program

/-- **The language whose bodies note what is in view.** -/
def Language.watched (L : Language β σ) : Language β (σ × Watch β) where
  method body call := (L.method body call).watched
  initializer body call :=
    match call.receiver with
    | some id => (L.initializer body call).watchedAs (AtWork.birthOf id)
    | none => (L.initializer body call).watched
  rule body call := (L.rule body call).watchedAs (AtWork.ruleOn call.subject)
  evaluate body id key := (L.evaluate body id key).watched
  inspect body id := (L.inspect body id).watched
  transformed body position rotation s := (L.transformed body position rotation s.1, s.2)

/-- A world without instances, in which nothing was noted yet. -/
def World.fresh (config : Config) (host : σ) : World β (σ × Watch β) :=
  { config, host := (host, {}) }

/-- **The outcome of a watched run** of a program from nothing, with the record of the run. -/
def Body.watchedRun (L : Language β σ) (allowance : Nat) (p : Body β σ α) (config : Config)
    (host : σ) : Option (Except ModelError α × World β (σ × Watch β)) :=
  (Body.exec L.watched allowance p.watched).outcome (World.fresh config host)

/-- **What came into view** in a run of a program from nothing. -/
def Body.Sighted (L : Language β σ) (allowance : Nat) (p : Body β σ α) (config : Config) (host : σ)
    (s : Sight β) : Prop :=
  ∃ r w, p.watchedRun L allowance config host = some (r, w) ∧ s ∈ w.host.2.sights

/-- A run can be searched for what came into view. -/
theorem Body.exists_sighted (p : Body β σ α) (L : Language β σ) (allowance : Nat)
    (config : Config) (host : σ) (test : Sight β → Bool)
    (h : (p.watchedRun L allowance config host).any
      (fun run => run.2.host.2.sights.any test) = true) :
    ∃ s, p.Sighted L allowance config host s ∧ test s = true := by
  obtain ⟨⟨r, w⟩, hrun, hany⟩ := (Option.any_eq_true _ _).mp h
  obtain ⟨s, hs, htest⟩ := List.any_eq_true.mp hany
  exact ⟨s, ⟨r, w, hrun, hs⟩, htest⟩

end ProductModel
