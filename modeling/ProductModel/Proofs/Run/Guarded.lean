import ProductModel.Proofs.Run.Bodies

/-!
# Guarded bodies

A guarded program keeps to what is allowed: before each operation it looks whether the operation is
allowed in the model at hand, and one that is not is answered with an error in place of being
performed.  A program that never does what is not allowed is left as it is.  So what holds of the
guarded bodies of every language holds of all languages whose bodies keep to what is allowed.

A property of worlds that the allowed operations keep is kept by guarded programs
(`always_guarded`), also while they are watched.
-/

namespace ProductModel

open ProductModel.Action

variable {β σ α : Type}

namespace Program

variable {ω : Type} {ans : ω → Type} {ν ε : Type}

/-- **The program that keeps to what is allowed.** -/
def guarded (allowed : ν → ω → Bool) (refusal : ε) :
    Program ω ans ν σ ε α → Program ω ans ν σ ε α
  | .pure a => .pure a
  | .fail e => .fail e
  | .perform op next => .look fun v _ =>
    if allowed v op then .perform op fun r => (next r).guarded allowed refusal
    else (next (.error refusal)).guarded allowed refusal
  | .look next => .look fun v s => (next v s).guarded allowed refusal
  | .put s next => .put s (next.guarded allowed refusal)

end Program

/-- **The language whose bodies keep to what is allowed.** -/
def Language.guarded (L : Language β σ) (allowed : Model β → Op β → Bool) (refusal : ModelError) :
    Language β σ where
  method body call := (L.method body call).guarded allowed refusal
  initializer body call := (L.initializer body call).guarded allowed refusal
  rule body call := (L.rule body call).guarded allowed refusal
  evaluate body id key := (L.evaluate body id key).guarded allowed refusal
  inspect := L.inspect
  transformed := L.transformed

/-- **A property of worlds of watched runs**: it does not depend on the state of the language, and a
model at hand may be noted. -/
structure Lasting (P : World β (σ × Watch β) → Prop) : Prop where
  host : ∀ {w} (host : σ × Watch β), P w →
    (∀ s ∈ host.2.sights, s ∈ w.host.2.sights ∨ s.model = w.model) → P { w with host }

namespace Lasting

variable {P : World β (σ × Watch β) → Prop} {w : World β (σ × Watch β)}

/-- A change of the language's own state. -/
theorem put (h : Lasting P) (hw : P w) (s : σ) : P { w with host := (s, w.host.2) } :=
  h.host _ hw fun _ hs => Or.inl hs

theorem note (h : Lasting P) (hw : P w) :
    P { w with host := (w.host.1, w.host.2.note w.model) } := by
  refine h.host _ hw fun s hs => ?_
  rcases List.mem_append.mp hs with hs | hs
  · exact Or.inl hs
  · exact Or.inr (congrArg Sight.model (List.mem_singleton.mp hs))

theorem begin (h : Lasting P) (hw : P w) (a : AtWork) :
    P { w with host := (w.host.1, w.host.2.begin a) } := h.host _ hw fun _ hs => Or.inl hs

theorem finish (h : Lasting P) (hw : P w) :
    P { w with host := (w.host.1, w.host.2.finish) } := h.host _ hw fun _ hs => Or.inl hs

end Lasting

section Run

variable {ω : Type} {ans : ω → Type} {handler : (op : ω) → Action β (σ × Watch β) (ans op)}
  {allowed : Model β → ω → Bool} {refusal : ModelError} {P : World β (σ × Watch β) → Prop}
  {w : World β (σ × Watch β)}

/-- What is noted first does not matter. -/
theorem always_noting {p : Program ω ans (Model β) (σ × Watch β) ModelError α} (hP : Lasting P)
    (h : ∀ {w}, P w → (p.run handler).Always w (fun _ => P) fun _ => P) (hw : P w) :
    (p.noting.run handler).Always w (fun _ => P) fun _ => P :=
  fun r w' hr => h (hP.note hw) r w' hr

/-- **What the allowed operations keep, guarded programs keep.** -/
theorem always_guarded (hP : Lasting P)
    (hhandler : ∀ {w} op, P w → allowed w.model op = true →
      (handler op).Always w (fun _ => P) fun _ => P)
    (p : Program ω ans (Model β) σ ModelError α) (hw : P w) :
    ((p.guarded allowed refusal).watched.run handler).Always w (fun _ => P) fun _ => P := by
  induction p generalizing w with
  | pure a => exact always_noting hP (fun h => (always_pure a).mpr h) hw
  | fail err => exact always_noting hP (fun h => (always_throw err).mpr h) hw
  | perform op next ih =>
    refine always_noting hP (fun {w} hw => ?_) hw
    show (Program.run handler (Program.watched (if allowed w.model op then _ else _))).Always w
      (fun _ => P) fun _ => P
    by_cases hop : allowed w.model op = true
    · rw [if_pos hop]
      -- Nothing but the record has changed since the question was asked.
      intro r w' hr
      have hstep : (attempt (handler op) >>= fun r =>
          ((next r).guarded allowed refusal).watched.run handler).Always
          { w with host := (w.host.1, w.host.2.note w.model) } (fun _ => P) fun _ => P := by
        rw [always_bind, always_attempt]
        exact (hhandler op (hP.note hw) hop).mono (fun a _ hw' => ih (.ok a) hw')
          fun e _ hw' => ih (.error e) hw'
      exact hstep r w' hr
    · rw [if_neg hop]
      exact ih _ hw
  | look next ih => exact always_noting hP (fun {w} hw => ih w.model w.host.1 hw) hw
  | put s next ih => exact always_noting hP (fun hw => ih (hP.put hw s)) hw

/-- A body that notes its beginning and its end. -/
theorem always_guardedAs (hP : Lasting P)
    (hhandler : ∀ {w} op, P w → allowed w.model op = true →
      (handler op).Always w (fun _ => P) fun _ => P)
    (p : Program ω ans (Model β) σ ModelError α) (work : Model β → AtWork) (hw : P w) :
    (((p.guarded allowed refusal).watchedAs work).run handler).Always w (fun _ => P)
      fun _ => P :=
  always_of_watched ((always_guarded hP hhandler p (hP.begin hw (work w.model))).mono
    (fun _ _ hw' => hP.finish hw') fun _ _ hw' => hP.finish hw')

end Run

end ProductModel
