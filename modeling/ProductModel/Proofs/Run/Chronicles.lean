import ProductModel.Proofs.Run.Alike

/-!
# Chronicles

Whatever is to be noted about a run can be kept in a chronicle beside the state of the language.  A
program with a chronicle notes what it sees whenever it has control, and is otherwise the program
that it was.  A language has a chronicle if all of its bodies have.

With a chronicle a program mirrors the program without it, as long as the operations do that it
performs (`Mirrors.chronicled`).  What is noted is up to the function that notes.
-/

namespace ProductModel

open ProductModel.Action

variable {β σ ρ α : Type} {note : Model β → ρ → ρ}

/-! ## Programs with a chronicle -/

namespace Program

variable {ω : Type} {ans : ω → Type} {ε : Type} (note : Model β → ρ → ρ)

/-- Notes what is in view and goes on. -/
def chronicling (p : Program ω ans (Model β) (σ × ρ) ε α) : Program ω ans (Model β) (σ × ρ) ε α :=
  .look fun m s => .put (s.1, note m s.2) p

/-- **The program that notes what is in view** whenever it has control. -/
def chronicled : Program ω ans (Model β) σ ε α → Program ω ans (Model β) (σ × ρ) ε α
  | .pure a => chronicling note (.pure a)
  | .fail e => chronicling note (.fail e)
  | .perform op next => chronicling note (.perform op fun r => (next r).chronicled)
  | .look next => chronicling note (.look fun m s => (next m s.1).chronicled)
  | .put s next => chronicling note (.look fun _ t => .put (s, t.2) next.chronicled)

end Program

/-- **The language whose bodies note what is in view.** -/
def Language.chronicled (L : Language β σ) (note : Model β → ρ → ρ) : Language β (σ × ρ) where
  method body call := (L.method body call).chronicled note
  initializer body call := (L.initializer body call).chronicled note
  rule body call := (L.rule body call).chronicled note
  evaluate body id key := (L.evaluate body id key).chronicled note
  inspect body id := (L.inspect body id).chronicled note
  transformed body position rotation s := (L.transformed body position rotation s.1, s.2)

/-! ## A chronicle changes nothing -/

section Run

variable {ω : Type} {ans : ω → Type} {handler : (op : ω) → Action β (σ × ρ) (ans op)}
  {handler' : (op : ω) → Action β σ (ans op)}

/-- What is noted is left out again. -/
theorem Mirrors.chronicling {p : Program ω ans (Model β) (σ × ρ) ModelError α} {y : Action β σ α}
    (h : Mirrors (.along Prod.fst) (p.run handler) y) :
    Mirrors (.along Prod.fst) ((p.chronicling note).run handler) y :=
  .of_outcome fun w => h.outcome { w with host := (w.host.1, note w.model w.host.2) }

/-- **A program with a chronicle mirrors the program** if the operations do that it performs. -/
theorem Mirrors.chronicled (hhandler : ∀ op, Mirrors (.along Prod.fst) (handler op) (handler' op))
    (p : Program ω ans (Model β) σ ModelError α) :
    Mirrors (.along Prod.fst) ((p.chronicled note).run handler) (p.run handler') := by
  induction p with
  | pure a => exact .chronicling (.pure a)
  | fail err => exact .chronicling (.throw err)
  | perform op next ih => exact .chronicling ((hhandler op).attempt.bind fun r => ih r)
  | look next ih => exact .chronicling (.of_outcome fun w => (ih w.model w.host.1).outcome w)
  | put s next ih =>
    exact .chronicling (.of_outcome fun w => ih.outcome { w with host := (s, w.host.2) })

end Run

/-- **A check of a type with a chronicle mirrors the check.** -/
theorem Mirrors.chronicledInspection (p : Inspection β σ Unit) :
    Mirrors (Likeness.along Prod.fst).besideLog (Inspection.run (p.chronicled note))
      (Inspection.run p) := by
  -- A note is written beside the host, where the check itself does not look.
  have hchronicling : ∀ {p : Inspection β (σ × ρ) Unit} {y : Logged β σ Unit},
      Mirrors (Likeness.along Prod.fst).besideLog (Inspection.run p) y →
      Mirrors (Likeness.along Prod.fst).besideLog (Inspection.run (p.chronicling note)) y := by
    intro p y hp
    exact ⟨fun {w v} h => hp.matched
      (w := { w with host := ((w.host.1.1, note w.model w.host.1.2), w.host.2) }) h⟩
  induction p with
  | pure a => exact hchronicling (.pure _)
  | fail err => exact hchronicling (.pure _)
  | perform op next ih =>
    exact hchronicling ((Mirrors.inspectHandler op).attempt.bind fun r => ih r)
  | look next ih =>
    refine hchronicling ⟨fun {w v} h => ?_⟩
    have hmodel : v.model = w.model := congrArg World.model h.1
    have hhost : v.host.1 = w.host.1.1 := congrArg World.host h.1
    have hmatched := (ih w.model w.host.1.1).matched h
    show Matched _ Eq ((Inspection.run ((next w.model w.host.1.1).chronicled note)).outcome w)
      ((Inspection.run (next v.model v.host.1)).outcome v)
    rw [hmodel, hhost]
    exact hmatched
  | put s next ih =>
    refine hchronicling ⟨fun {w v} h => ih.matched
      (w := { w with host := ((s, w.host.1.2), w.host.2) })
      (v := { v with host := (s, v.host.2) }) ⟨?_, h.2⟩⟩
    exact congrArg (fun u : World β σ => { u with host := s }) h.1

/-- **The engine of a language with a chronicle is like that of the language** if the operations are
that its bodies perform. -/
theorem Engine.Alike.chronicled {L : Language β σ}
    {handler : (op : Op β) → Action β (σ × ρ) op.Answer}
    {handler' : (op : Op β) → Action β σ op.Answer}
    (h : ∀ op, Mirrors (.along Prod.fst) (handler op) (handler' op)) :
    Engine.Alike (.along Prod.fst) ⟨L.chronicled see, fun body => body.run handler⟩
      ⟨L, fun body => body.run handler'⟩ where
  method body call := .chronicled h (L.method body call)
  initializer body call := .chronicled h (L.initializer body call)
  rule body call := .chronicled h (L.rule body call)
  evaluate body id key := .chronicled h (L.evaluate body id key)
  inspect body id := .chronicledInspection (L.inspect body id)
  transformed body position rotation w v h := by
    rw [h]
    rfl

end ProductModel
