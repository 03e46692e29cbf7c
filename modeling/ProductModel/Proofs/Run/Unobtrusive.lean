import ProductModel.Proofs.Run.Alike
import ProductModel.Proofs.Run.Bodies
import ProductModel.Proofs.Run.Chronicles

/-!
# Watching changes nothing

A watched run keeps a record beside the state of the language, and is otherwise the run that there
would be without it (`Body.outcome_watchedRun`).  So the sights of a watched run are what comes into
view in the run itself.

Watched bodies mirror the bodies that they watch, as long as the operations do that they perform.
This is the same circle as for the rules of a run, and it is closed in the same way, by induction on
the allowance for nesting.
-/

namespace ProductModel

open ProductModel.Action

variable {β σ α : Type}

/-! ## Watched bodies -/

/-- Watching a program is keeping a chronicle of what is in view. -/
theorem Program.watched_eq {ω : Type} {ans : ω → Type} {ε : Type}
    (p : Program ω ans (Model β) σ ε α) :
    p.watched = p.chronicled fun m (t : Watch β) => t.note m := by
  induction p with
  | pure a => rfl
  | fail err => rfl
  | perform op next ih => exact congrArg (fun next => noting (.perform op next)) (funext ih)
  | look next ih =>
    exact congrArg (fun next => noting (.look next)) (funext fun m => funext fun s => ih m s.1)
  | put s next ih => exact congrArg (fun next => noting (.look fun _ t => .put (s, t.2) next)) ih

section Run

variable {ω : Type} {ans : ω → Type} {handler : (op : ω) → Action β (σ × Watch β) (ans op)}
  {handler' : (op : ω) → Action β σ (ans op)}

/-- **A watched program mirrors the program** if the operations do that it performs. -/
theorem mirrors_watched (hhandler : ∀ op, Mirrors (.along Prod.fst) (handler op) (handler' op))
    (p : Program ω ans (Model β) σ ModelError α) :
    Mirrors (.along Prod.fst) (p.watched.run handler) (p.run handler') := by
  rw [p.watched_eq]
  exact .chronicled hhandler p

/-- Noting the end of a body leaves its outcome. -/
theorem Mirrors.finishing {p : Program ω ans (Model β) (σ × Watch β) ModelError α}
    {y : Action β σ α} (h : Mirrors (.along Prod.fst) (p.run handler) y) :
    Mirrors (.along Prod.fst) (p.finishing.run handler) y := by
  refine .of_outcome fun w => ?_
  rw [h.outcome, outcome_finishing, Option.map_map]
  rfl

theorem mirrors_watchedAs (hhandler : ∀ op, Mirrors (.along Prod.fst) (handler op) (handler' op))
    (p : Program ω ans (Model β) σ ModelError α) (work : Model β → AtWork) :
    Mirrors (.along Prod.fst) ((p.watchedAs work).run handler) (p.run handler') :=
  .of_outcome fun w => (mirrors_watched hhandler p).finishing.outcome
    { w with host := (w.host.1, w.host.2.begin (work w.model)) }

end Run

/-! ## Runs -/

theorem alike_of_mirrors {L : Language β σ} {allowance : Nat}
    (h : ∀ op, Mirrors (.along Prod.fst) (perform L.watched allowance op)
      (perform L allowance op)) :
    (L.watched.engine allowance).Alike (.along Prod.fst) (L.engine allowance) where
  method body call := mirrors_watched h (L.method body call)
  initializer body call := by
    obtain ⟨receiver, args⟩ := call
    cases receiver with
    | none => exact mirrors_watched h _
    | some id => exact mirrors_watchedAs h _ _
  rule body call := mirrors_watchedAs h (L.rule body call) _
  evaluate body id key := mirrors_watched h (L.evaluate body id key)
  inspect body id := by
    show Mirrors _ (Inspection.run (L.inspect body id).watched) _
    rw [(L.inspect body id).watched_eq]
    exact .chronicledInspection (L.inspect body id)
  transformed body position rotation w v h := by
    rw [h]
    rfl

/-- **Operations of a watched language mirror those of the language**, however deep their bodies are
nested. -/
theorem mirrors_perform (L : Language β σ) (allowance : Nat) (op : Op β) :
    Mirrors (.along Prod.fst) (perform L.watched allowance op) (perform L allowance op) := by
  induction allowance generalizing op with
  | zero => exact .exhausted
  | succ allowance ih =>
    by_cases hop : op = .info
    · subst hop
      exact .of_outcome fun _ => rfl
    · exact (alike_of_mirrors ih).step op hop

/-- **The engine of a watched language is like that of the language.** -/
theorem Language.alike_watched (L : Language β σ) (allowance : Nat) :
    (L.watched.engine allowance).Alike (.along Prod.fst) (L.engine allowance) :=
  alike_of_mirrors (mirrors_perform L allowance)

/-- **Watching changes nothing.**  A program from outside has the outcome of its watched run, apart
from the record. -/
theorem Body.outcome_watchedRun (p : Body β σ α) (L : Language β σ) (allowance : Nat)
    (config : Config) (host : σ) :
    (Body.exec L allowance p).outcome { config, host } =
      (p.watchedRun L allowance config host).map fun run => (run.1, run.2.project Prod.fst) :=
  (mirrors_watched (mirrors_perform L allowance) p).outcome (World.fresh config host)

/-- The world in which a record is begun. -/
def World.watching (w : World β σ) : World β (σ × Watch β) := { w with host := (w.host, {}) }

/-- What an action comes to, it comes to when it is watched. -/
theorem Mirrors.exists_outcome {x : Action β (σ × Watch β) α} {y : Action β σ α}
    (h : Mirrors (.along Prod.fst) x y) {w w' : World β σ} {r : Except ModelError α}
    (hr : y.outcome w = some (r, w')) :
    ∃ v, x.outcome w.watching = some (r, v) ∧ v.model = w'.model := by
  have hout := h.outcome w.watching
  rw [show w.watching.project Prod.fst = w from rfl, hr] at hout
  obtain ⟨⟨r', v⟩, hv, heq⟩ := Option.map_eq_some_iff.mp hout.symm
  obtain ⟨rfl, rfl⟩ := Prod.mk.inj heq
  exact ⟨v, hv, rfl⟩

/-- **An action that follows the rules when it is watched** takes reachable models to such. -/
theorem Mirrors.reachable {x : Action β (σ × Watch β) α} {y : Action β σ α}
    (h : Mirrors (.along Prod.fst) x y) (hx : Follows noted x) {pending : List Pending}
    {w w' : World β σ} (hw : Reachable pending w.model) {r : Except ModelError α}
    (hr : y.outcome w = some (r, w')) :
    Reachable pending w'.model := by
  obtain ⟨v, hv, hmodel⟩ := h.exists_outcome hr
  rw [← hmodel]
  exact (hx.reached (w := w.watching) hw hv).reachable

/-- **Operations of a language** take reachable models to such. -/
theorem Reachable.after_perform {pending : List Pending} {w w' : World β σ}
    (hw : Reachable pending w.model) {L : Language β σ} {allowance : Nat} {op : Op β}
    {r : Except ModelError op.Answer}
    (hr : (perform L allowance op).outcome w = some (r, w')) :
    Reachable pending w'.model :=
  (mirrors_perform L allowance op).reachable (follows_perform L allowance op) hw hr

/-- **Programs from outside** take reachable models to such. -/
theorem Reachable.after_exec {pending : List Pending} {w w' : World β σ}
    (hw : Reachable pending w.model) {L : Language β σ} {allowance : Nat} {p : Body β σ α}
    {r : Except ModelError α} (hr : (Body.exec L allowance p).outcome w = some (r, w')) :
    Reachable pending w'.model :=
  (mirrors_watched (mirrors_perform L allowance) p).reachable (follows_exec L allowance p) hw hr

end ProductModel
