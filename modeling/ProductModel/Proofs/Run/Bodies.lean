import ProductModel.Proofs.Run.Perform

/-!
# Bodies follow the rules

Bodies perform operations, and operations run bodies with one nesting less.  The engine of a watched
language is lawful because a watched body notes only models at hand, and what it performs follows
the rules already.  This is the induction that closes the circle (`follows_perform`), and
`follows_exec` is its consequence for programs that are run from outside.
-/

namespace ProductModel

open ProductModel.Action

variable {β τ σ α : Type} {seen : τ → Watch β} {pending : List Pending}

/-! ## Watched bodies -/

/-- The record that watched bodies keep. -/
abbrev noted (s : σ × Watch β) : Watch β := s.2

/-- **Noting the model at hand** is a step of a run. -/
theorem leads_note {τ : Type} {seen : τ → Watch β} {w : World β τ} {host : τ}
    (hw : Reachable pending w.model) (hhost : seen host = (seen w.host).note w.model) :
    Leads seen pending (modify fun w => { w with host } : Action β τ PUnit) w
      fun _ _ => True := by
  exact (always_modify _).mpr ⟨.noting hw hhost, True.intro⟩

/-- A change of the program's own state notes nothing. -/
theorem leads_put {w : World β τ} (host : τ) (hw : Reachable pending w.model)
    (hhost : seen host = seen w.host) :
    Leads seen pending (modify fun w => { w with host } : Action β τ PUnit) w
      fun _ _ => True :=
  (always_modify _).mpr ⟨.of_same hw rfl hhost, True.intro⟩

section Run

variable {ω : Type} {ans : ω → Type}
  {handler : (op : ω) → Action β (σ × Watch β) (ans op)}

theorem follows_noting
    {p : Program ω ans (Model β) (σ × Watch β) ModelError α}
    (hp : Follows noted (p.run handler)) : Follows noted (p.noting.run handler) := by
  constructor
  intro pending w hw
  unfold Program.noting
  rw [Program.run]
  refine .get_bind hw ?_
  rw [Program.run]
  exact (leads_note hw rfl).bind fun _ _ hr _ => hp.leads hr.reachable

/-- **A watched program follows the rules** if the operations do that it performs. -/
theorem follows_run (hhandler : ∀ op, Follows noted (handler op))
    (p : Program ω ans (Model β) σ ModelError α) :
    Follows noted (p.watched.run handler) := by
  induction p with
  | pure a => exact follows_noting (.pure a)
  | fail err => exact follows_noting (.throw err)
  | perform op next ih =>
    exact follows_noting ((hhandler op).attempt.bind fun r => ih r)
  | look next ih =>
    exact follows_noting (Follows.get.bind fun w => ih w.model w.host.1)
  | put s next ih =>
    refine follows_noting ⟨fun {pending w} hw => ?_⟩
    rw [Program.run]
    refine .get_bind hw ?_
    rw [Program.run]
    exact (leads_put (s, w.host.2) hw rfl).bind fun _ _ hr _ => ih.leads hr.reachable

/-- What a program comes to that notes the end of a rule. -/
theorem outcome_finishing (p : Program ω ans (Model β) (σ × Watch β) ModelError α)
    (w : World β (σ × Watch β)) :
    (p.finishing.run handler).outcome w =
      ((p.run handler).outcome w).map fun r =>
        (r.1, { r.2 with host := (r.2.host.1, r.2.host.2.finish) }) := by
  induction p generalizing w with
  | pure a => rfl
  | fail err => rfl
  | perform op next ih =>
    rw [Program.finishing, Program.run, Program.run, outcome_bind, outcome_bind, outcome_attempt]
    cases (handler op).outcome w with
    | none => rfl
    | some r => exact ih r.1 r.2
  | look next ih => exact ih w.model w.host w
  | put s next ih => exact ih { w with host := s }

/-- **A body that notes its beginning and its end** comes to what it comes to in between. -/
theorem always_of_watched {body : Program ω ans (Model β) σ ModelError α} {work : Model β → AtWork}
    {w : World β (σ × Watch β)} {ok : α → World β (σ × Watch β) → Prop}
    {err : ModelError → World β (σ × Watch β) → Prop}
    (h : (body.watched.run handler).Always
      { w with host := (w.host.1, w.host.2.begin (work w.model)) }
      (fun a w' => ok a { w' with host := (w'.host.1, w'.host.2.finish) })
      fun e w' => err e { w' with host := (w'.host.1, w'.host.2.finish) }) :
    ((body.watchedAs work).run handler).Always w ok err := by
  intro r w' hr
  have hout : ((body.watchedAs work).run handler).outcome w =
      (body.watched.finishing.run handler).outcome
        { w with host := (w.host.1, w.host.2.begin (work w.model)) } := rfl
  rw [hout, outcome_finishing, Option.map_eq_some_iff] at hr
  obtain ⟨⟨r', w''⟩, hrun, hr⟩ := hr
  cases hr
  have hpost := h r' w'' hrun
  cases r' <;> exact hpost

/-- **A body that notes its beginning and its end runs inside what it is the body of.** -/
theorem always_watchedAs (hhandler : ∀ op, Follows noted (handler op))
    (body : Program ω ans (Model β) σ ModelError α) {work : Model β → AtWork} {p : Pending}
    {w : World β (σ × Watch β)} (hw : Reachable (p :: pending) w.model)
    (hwork : work w.model = p.work) :
    ((body.watchedAs work).run handler).Always w
      (fun _ w' => Inside noted p pending w w')
      (fun _ w' => Inside noted p pending w w') := by
  have hinside : ∀ {w'}, Reached noted (p :: pending)
      { w with host := (w.host.1, w.host.2.begin (work w.model)) } w' →
      Inside noted p pending w { w' with host := (w'.host.1, w'.host.2.finish) } := by
    intro w' hreached
    -- Inside, the body is the innermost at work; from outside, it has come and gone.
    have hafter : (noted w'.host).work = p.work :: (noted w.host).work := by
      rw [hreached.work, ← hwork]
      rfl
    refine ⟨hreached.reachable, hreached.aged, hreached.spared, hreached.changes, ?_, ?_⟩
    · show (noted w'.host).work.tail = _
      rw [hafter]
      rfl
    · obtain ⟨ss, heq, hss⟩ := hreached.noted
      refine ⟨ss, heq, ?_⟩
      intro s hs
      obtain ⟨inner, hinner, hsight⟩ := hss s hs
      refine ⟨inner, hinner, ?_⟩
      rw [hsight, ← hreached.work, hafter]
  exact always_of_watched (Always.mono ((follows_run hhandler body).leads hw)
    (fun _ _ hr => hinside hr.1) fun _ _ hr => hinside hr)

/-- **The body of a watched rule runs inside its chain.**  While it is at work, it is the rule of
the chain, with the subject as it stood at the beginning of the chain. -/
theorem always_watchedRule (hhandler : ∀ op, Follows noted (handler op))
    (body : Program ω ans (Model β) σ ModelError α) {x : InstanceId} {standing : Standing}
    {moment : Nat} {w : World β (σ × Watch β)}
    (hw : Reachable (.chain x standing moment :: pending) w.model) :
    ((body.watchedAs (AtWork.ruleOn x)).run handler).Always w
      (fun _ w' => Inside noted (.chain x standing moment) pending w w')
      (fun _ w' => Inside noted (.chain x standing moment) pending w w') := by
  obtain ⟨-, i, hi, hstanding, -⟩ := hw.sound.held _ List.mem_cons_self
  refine always_watchedAs hhandler body hw ?_
  unfold AtWork.ruleOn
  rw [hi, Option.map_some, hstanding]
  rfl

/-- **The body of a watched initializer runs inside the birth of its instance.** -/
theorem always_watchedInitializer (hhandler : ∀ op, Follows noted (handler op))
    (body : Program ω ans (Model β) σ ModelError α) {id : InstanceId} {moment : Nat}
    {w : World β (σ × Watch β)} (hw : Reachable (.birth id moment :: pending) w.model)
    (hthere : ∃ i, w.model.arena.get? id = some i ∧ i.order = moment + 1) :
    ((body.watchedAs (AtWork.birthOf id)).run handler).Always w
      (fun _ w' => Inside noted (.birth id moment) pending w w')
      (fun _ w' => Inside noted (.birth id moment) pending w w') := by
  obtain ⟨i, hi, horder⟩ := hthere
  refine always_watchedAs hhandler body hw ?_
  unfold AtWork.birthOf
  rw [hi, Option.map_some, horder]
  rfl

end Run

/-- **A watched check of a type follows the rules.** -/
theorem follows_inspection (p : Inspection β σ Unit) :
    Follows (besideLog noted) (Inspection.run p.watched) := by
  -- Before each step the model is noted, which changes nothing of it.
  have hnoting : ∀ p : Inspection β (σ × Watch β) Unit,
      Follows (besideLog noted) (Inspection.run p) →
      Follows (besideLog noted) (Inspection.run p.noting) := by
    intro p hp
    constructor
    intro pending w hw
    unfold Program.noting
    rw [Inspection.run]
    refine .get_bind hw ?_
    rw [Inspection.run]
    refine Leads.bind (P := fun _ _ => True) ((always_modify _).mpr ?_) fun _ _ hr _ =>
      hp.leads hr.reachable
    exact ⟨.noting hw rfl, True.intro⟩
  induction p with
  | pure a => exact hnoting _ (.pure _)
  | fail err => exact hnoting _ (.pure _)
  | perform op next ih =>
    exact hnoting _ ((follows_inspectHandler op).attempt.bind fun r => ih r)
  | look next ih =>
    exact hnoting _ (Follows.get.bind fun w => ih w.model w.host.1.1)
  | put s next ih =>
    refine hnoting _ ⟨fun {pending w} hw => ?_⟩
    rw [Inspection.run]
    refine .get_bind hw ?_
    rw [Inspection.run]
    refine Leads.bind (P := fun _ _ => True) ((always_modify _).mpr ?_) fun _ _ hr _ =>
      ih.leads hr.reachable
    exact ⟨.of_same hw rfl rfl, True.intro⟩

/-! ## Runs -/

/-- The engine of a language, with bodies nested at most `allowance` deep. -/
def Language.engine (L : Language β σ) (allowance : Nat) : Engine β σ :=
  ⟨L, fun body => body.run (perform L allowance)⟩

/-- A watched engine is lawful if the operations follow the rules that its bodies perform. -/
theorem lawful_of_watched {L : Language β σ} {allowance : Nat}
    (h : ∀ op, Follows noted (perform L.watched allowance op)) :
    (L.watched.engine allowance).Lawful noted where
  method body call := follows_run h (L.method body call)
  initializer body id args _ _ _ hw hthere :=
    always_watchedInitializer h (L.initializer body ⟨some id, args⟩) hw hthere
  rule body call _ _ _ _ hw := always_watchedRule h (L.rule body call) hw
  evaluate body id key := follows_run h (L.evaluate body id key)
  inspect body id := follows_inspection (L.inspect body id)
  transformed _ _ _ _ := rfl

/-- **Operations of a watched language follow the rules**, however deep their bodies are nested. -/
theorem follows_perform (L : Language β σ) (allowance : Nat) (op : Op β) :
    Follows noted (perform L.watched allowance op) := by
  induction allowance generalizing op with
  | zero => exact ⟨fun _ => always_exhausted⟩
  | succ allowance ih => exact (lawful_of_watched ih).step op

/-- **The engine of a watched language is lawful.** -/
theorem Language.lawful_watched (L : Language β σ) (allowance : Nat) :
    (L.watched.engine allowance).Lawful noted :=
  lawful_of_watched (follows_perform L allowance)

/-- **A watched program from outside follows the rules.** -/
theorem follows_exec (L : Language β σ) (allowance : Nat) (p : Body β σ α) :
    Follows noted (Body.exec L.watched allowance p.watched) :=
  follows_run (follows_perform L allowance) p

/-- **How far a run from nothing has come** when it ends. -/
theorem Body.reached_watchedRun {L : Language β σ} {allowance : Nat} {p : Body β σ α}
    {config : Config} {host : σ} {r : Except ModelError α} {w : World β (σ × Watch β)}
    (h : p.watchedRun L allowance config host = some (r, w)) :
    Reached noted [] (World.fresh config host) w := by
  have hstart : Reachable [] (World.fresh (β := β) config host).model := .empty rfl rfl
  exact (follows_exec L allowance p).reached hstart h

/-- **Everything that comes into view in a run from nothing is reachable**, with the bodies at work
that belong to what is under way. -/
theorem Body.Sighted.reachable {L : Language β σ} {allowance : Nat} {p : Body β σ α}
    {config : Config} {host : σ} {s : Sight β} (h : p.Sighted L allowance config host s) :
    ∃ pending, Reachable pending s.model ∧ s.work = pending.map Pending.work := by
  obtain ⟨r, w, hrun, hs⟩ := h
  obtain ⟨ss, heq, hss⟩ := (Body.reached_watchedRun hrun).noted
  have hmem : s ∈ ss := by
    rw [show w.host.2.sights = (noted w.host).sights from rfl, heq] at hs
    exact hs
  obtain ⟨inner, hinner, hwork⟩ := hss s hmem
  refine ⟨inner, by rw [← List.append_nil inner]; exact hinner, ?_⟩
  rw [hwork]
  exact List.append_nil _

end ProductModel
