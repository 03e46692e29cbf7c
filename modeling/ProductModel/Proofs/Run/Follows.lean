import ProductModel.Proofs.Outcome
import ProductModel.Proofs.Run.Births
import ProductModel.Proofs.Run.Watching

/-!
# Actions that follow the rules of a run

An action follows the rules when it takes every reachable world, whatever is under way there, to a
reachable world with the same under way, and everything that is seen meanwhile is reachable with
that and more under way (`Reached`).  `Leads` says this of one action in one world and adds what is
known of the result; `Follows` says it for all worlds.

The rules below take an action apart into its steps.  None of them looks into the monad, and none
knows what the operations are.

## Design

The worlds of a run and those of a consistency check differ in the state that bodies see: a check
has a log beside it.  Everything is therefore stated for worlds over any state, with a function
`seen` that finds the record of the run in it.
-/

namespace ProductModel

open ProductModel.Action

variable {β τ α γ : Type}

/-! ## The record of property changes -/

namespace ChangeHistory

variable {c c' c'' : ChangeHistory}

/-- **What programs do to the record of changes**: the innermost running change gets further keys,
and those around it stay as they are. -/
def Extends (c c' : ChangeHistory) : Prop :=
  match c.running with
  | [] => c'.running = []
  | keys :: outer => ∃ more, c'.running = (keys ++ more) :: outer

theorem extends_of_running (h : c'.running = c.running) : c.Extends c' := by
  unfold Extends
  cases hc : c.running with
  | nil => rw [h, hc]
  | cons keys outer => exact ⟨[], by rw [h, hc, List.append_nil]⟩

theorem Extends.refl (c : ChangeHistory) : c.Extends c := extends_of_running rfl

theorem Extends.trans (h : c.Extends c') (h' : c'.Extends c'') : c.Extends c'' := by
  unfold Extends at *
  cases hc : c.running with
  | nil =>
    rw [hc] at h
    rw [show c'.running = [] from h] at h'
    exact h'
  | cons keys outer =>
    rw [hc] at h
    obtain ⟨more, hmore⟩ := h
    rw [hmore] at h'
    obtain ⟨rest, hrest⟩ := h'
    exact ⟨more ++ rest, by rw [hrest, List.append_assoc]⟩

/-- Recording a key. -/
theorem extends_record (c : ChangeHistory) (key : Symbol) : c.Extends (c.record key) := by
  unfold Extends record
  cases hc : c.running with
  | nil => exact hc
  | cons keys outer =>
    dsimp only
    split
    · exact ⟨[], by rw [hc, List.append_nil]⟩
    · exact ⟨[key], rfl⟩

/-- **A change from its start to its end** leaves the changes around it alone. -/
theorem Extends.finish (h : c.start.Extends c') : c.Extends c'.finish := by
  obtain ⟨more, hmore⟩ : ∃ more, c'.running = ([] ++ more) :: c.running := h
  refine extends_of_running ?_
  show c'.running.tail = _
  rw [hmore]
  rfl

end ChangeHistory

/-! ## How far a run has come -/

/-- What a list gains in two stretches. -/
theorem exists_append_trans {ξ : Type} {P : ξ → Prop} {l l' l'' : List ξ}
    (h : ∃ more, l' = l ++ more ∧ ∀ x ∈ more, P x)
    (h' : ∃ more, l'' = l' ++ more ∧ ∀ x ∈ more, P x) :
    ∃ more, l'' = l ++ more ∧ ∀ x ∈ more, P x := by
  obtain ⟨ss, rfl, hss⟩ := h
  obtain ⟨ts, rfl, hts⟩ := h'
  refine ⟨ss ++ ts, List.append_assoc _ _ _, fun x hx => ?_⟩
  rcases List.mem_append.mp hx with hx | hx
  · exact hss x hx
  · exact hts x hx

/-- The body at work in what is under way: a rule of a chain, or an initializer.  An instance gets
the next number in the order of creation. -/
def Pending.work : Pending → AtWork
  | .chain subject standing _ => .rule ⟨subject, some standing⟩
  | .birth id moment => .birth ⟨id, some (moment + 1)⟩

/-- **How far a run has come** from one world to another. -/
structure Reached (seen : τ → Watch β) (pending : List Pending) (w w' : World β τ) : Prop where
  reachable : Reachable pending w'.model
  aged : Aged w.model w'.model
  spared : Spared pending w.model w'.model
  changes : w.model.changes.Extends w'.model.changes
  work : (seen w'.host).work = (seen w.host).work
  /-- what was seen on the way, with what was under way in addition -/
  noted : ∃ ss, (seen w'.host).sights = (seen w.host).sights ++ ss ∧
    ∀ s ∈ ss, ∃ inner, Reachable (inner ++ pending) s.model ∧
      s.work = inner.map Pending.work ++ (seen w.host).work

/-- **How far a run has come inside** a chain or a birth, before or after one of its bodies. -/
structure Inside (seen : τ → Watch β) (p : Pending) (pending : List Pending) (w w' : World β τ) :
    Prop where
  reachable : Reachable (p :: pending) w'.model
  aged : Aged w.model w'.model
  spared : Spared (p :: pending) w.model w'.model
  changes : w.model.changes.Extends w'.model.changes
  work : (seen w'.host).work = (seen w.host).work
  /-- what was seen on the way, with the body at work -/
  noted : ∃ ss, (seen w'.host).sights = (seen w.host).sights ++ ss ∧
    ∀ s ∈ ss, ∃ inner, Reachable (inner ++ p :: pending) s.model ∧
      s.work = inner.map Pending.work ++ p.work :: (seen w.host).work

/-- **Where an action leads** from a world: along a run, and with a result to which the
postcondition applies. -/
def Leads (seen : τ → Watch β) (pending : List Pending) (x : Action β τ α) (w : World β τ)
    (post : α → World β τ → Prop) : Prop :=
  x.Always w (fun a w' => Reached seen pending w w' ∧ post a w')
    fun _ w' => Reached seen pending w w'

/-- **An action that follows the rules of a run** from wherever it starts. -/
structure Follows (seen : τ → Watch β) (x : Action β τ α) : Prop where
  leads : ∀ {pending : List Pending} {w : World β τ}, Reachable pending w.model →
    Leads seen pending x w fun _ _ => True

variable {seen : τ → Watch β} {pending : List Pending} {w w' w'' : World β τ}
  {post : α → World β τ → Prop}

namespace Reached

/-- A step that notes nothing. -/
theorem of_quiet (h : Reachable pending w'.model) (haged : Aged w.model w'.model)
    (hspared : Spared pending w.model w'.model)
    (hchanges : w.model.changes.Extends w'.model.changes)
    (hseen : seen w'.host = seen w.host) : Reached seen pending w w' := by
  refine ⟨h, haged, hspared, hchanges, by rw [hseen], [], by rw [hseen, List.append_nil], ?_⟩
  intro s hs
  cases hs

theorem refl (h : Reachable pending w.model) : Reached seen pending w w :=
  .of_quiet h (.refl _) (.refl _ _) (.refl _) rfl

theorem trans (h : Reached seen pending w w') (h' : Reached seen pending w' w'') :
    Reached seen pending w w'' := by
  refine ⟨h'.reachable, h.aged.trans h'.aged, h.spared.trans h'.spared h.aged h'.aged,
    h.changes.trans h'.changes, h'.work.trans h.work, ?_⟩
  have hlater := h'.noted
  rw [h.work] at hlater
  exact exists_append_trans h.noted hlater

/-- A step that leaves the model alone and notes nothing. -/
theorem of_same (h : Reachable pending w.model) (hmodel : w'.model = w.model)
    (hseen : seen w'.host = seen w.host) : Reached seen pending w w' := by
  refine .of_quiet ?_ ?_ ?_ ?_ hseen
  · rw [hmodel]
    exact h
  · rw [hmodel]
    exact .refl _
  · rw [hmodel]
    exact .refl _ _
  · rw [hmodel]
    exact .refl _

/-- **A step that edits the model.** -/
theorem of_edit (h : Reachable pending w.model) (e : Edit w.model w'.model)
    (hspared : Spared pending w.model w'.model)
    (hchanges : w.model.changes.Extends w'.model.changes)
    (hseen : seen w'.host = seen w.host) : Reached seen pending w w' :=
  .of_quiet (h.edit e) (e.careful h.sound.coherent).1.aged hspared hchanges hseen

/-- **Noting what is in view.** -/
theorem noting {host : τ} (h : Reachable pending w.model)
    (hseen : seen host = (seen w.host).note w.model) :
    Reached seen pending w { w with host } := by
  refine ⟨h, .refl _, .refl _ _, .refl _, ?_, [⟨w.model, (seen w.host).work⟩], ?_, ?_⟩
  · show (seen host).work = _
    rw [hseen]
    rfl
  · show (seen host).sights = _
    rw [hseen]
    rfl
  intro s hs
  rw [List.mem_singleton.mp hs]
  exact ⟨[], h, rfl⟩

theorem sound (h : Reached seen pending w w') : Sound pending w'.model := h.reachable.sound

end Reached

namespace Inside

variable {p : Pending}

/-- A step that notes nothing. -/
theorem of_quiet (h : Reachable (p :: pending) w'.model) (haged : Aged w.model w'.model)
    (hspared : Spared (p :: pending) w.model w'.model)
    (hchanges : w.model.changes.Extends w'.model.changes)
    (hseen : seen w'.host = seen w.host) : Inside seen p pending w w' := by
  refine ⟨h, haged, hspared, hchanges, by rw [hseen], [], by rw [hseen, List.append_nil], ?_⟩
  intro s hs
  cases hs

theorem refl (h : Reachable (p :: pending) w.model) : Inside seen p pending w w :=
  .of_quiet h (.refl _) (.refl _ _) (.refl _) rfl

theorem trans (h : Inside seen p pending w w') (h' : Inside seen p pending w' w'') :
    Inside seen p pending w w'' := by
  refine ⟨h'.reachable, h.aged.trans h'.aged, h.spared.trans h'.spared h.aged h'.aged,
    h.changes.trans h'.changes, h'.work.trans h.work, ?_⟩
  have hlater := h'.noted
  rw [h.work] at hlater
  exact exists_append_trans h.noted hlater

/-- **A stretch of a run inside a chain or a birth** is one of the run around it, from before the
beginning to after the end. -/
theorem reached {v v' : World β τ} (h : Inside seen p pending v v')
    (hstart : Aged w.model v.model) (hstart' : Spared pending w.model v.model)
    (hend : Reachable pending w'.model) (hlast : Aged v'.model w'.model)
    (hlast' : Spared pending v'.model w'.model) (hchanges : v.model.changes = w.model.changes)
    (hchanges' : w'.model.changes = v'.model.changes) (hseen : seen v.host = seen w.host)
    (hseen' : seen w'.host = seen v'.host) : Reached seen pending w w' := by
  have haged := hstart.trans h.aged
  have hspared := hstart'.trans h.spared.of_cons hstart h.aged
  refine ⟨hend, haged.trans hlast, hspared.trans hlast' haged hlast, ?_,
    by rw [hseen', h.work, hseen], ?_⟩
  · rw [hchanges', ← hchanges]
    exact h.changes
  obtain ⟨ss, heq, hss⟩ := h.noted
  refine ⟨ss, by rw [hseen', heq, hseen], ?_⟩
  intro s hs
  obtain ⟨inner, hinner, hwork⟩ := hss s hs
  refine ⟨inner ++ [p], by rw [List.append_assoc]; exact hinner, ?_⟩
  rw [hwork, hseen, List.map_append, List.append_assoc]
  rfl

end Inside

namespace Leads

/-- A stronger postcondition is as good. -/
theorem mono {post' : α → World β τ → Prop} {x : Action β τ α} (h : Leads seen pending x w post)
    (hpost : ∀ a w', Reached seen pending w w' → post a w' → post' a w') :
    Leads seen pending x w post' :=
  Always.mono h (fun a w' hr => ⟨hr.1, hpost a w' hr.1 hr.2⟩) fun _ _ hr => hr

theorem trivial {x : Action β τ α} (h : Leads seen pending x w post) :
    Leads seen pending x w fun _ _ => True :=
  h.mono fun _ _ _ _ => True.intro

theorem pure {a : α} (hw : Reachable pending w.model) (hpost : post a w) :
    Leads seen pending (Pure.pure a) w post :=
  (always_pure a).mpr ⟨.refl hw, hpost⟩

theorem throw {e : ModelError} (hw : Reachable pending w.model) :
    Leads seen pending (MonadExcept.throw e : Action β τ α) w post :=
  (always_throw e).mpr (.refl hw)

/-- **A step and what follows it.** -/
theorem bind {x : Action β τ γ} {f : γ → Action β τ α} {P : γ → World β τ → Prop}
    (hx : Leads seen pending x w P)
    (hf : ∀ a w', Reached seen pending w w' → P a w' → Leads seen pending (f a) w' post) :
    Leads seen pending (x >>= f) w post := by
  refine (always_bind x f).mpr (Always.mono hx ?_ fun _ _ hr => hr)
  rintro a w' ⟨hreach, hpast⟩
  refine Always.mono (hf a w' hreach hpast) ?_ ?_
  · rintro b w'' ⟨hreach', hpost⟩
    exact ⟨hreach.trans hreach', hpost⟩
  · intro e w'' hreach'
    exact hreach.trans hreach'

/-- An attempt has the errors of the action among its results. -/
theorem attempt {x : Action β τ α} {post : Except ModelError α → World β τ → Prop}
    (hx : x.Always w (fun a w' => Reached seen pending w w' ∧ post (.ok a) w')
      fun e w' => Reached seen pending w w' ∧ post (.error e) w') :
    Leads seen pending (Action.attempt x) w post :=
  (always_attempt x).mpr hx

theorem attempt_follows {x : Action β τ α} (hx : Follows seen x)
    (hw : Reachable pending w.model) :
    Leads seen pending (Action.attempt x) w fun _ _ => True := by
  refine attempt (Always.mono (hx.leads hw) (fun _ _ hr => hr) ?_)
  intro e w' hr
  exact ⟨hr, True.intro⟩

/-! ### Steps that look -/

theorem ofExcept {r : Except ModelError α} (hw : Reachable pending w.model)
    (hpost : ∀ a, r = .ok a → post a w) : Leads seen pending (Action.ofExcept r) w post :=
  (always_ofExcept r).mpr ⟨fun a ha => ⟨.refl hw, hpost a ha⟩, fun _ _ => .refl hw⟩

theorem model {post : Model β → World β τ → Prop} (hw : Reachable pending w.model)
    (hpost : post w.model w) : Leads seen pending Action.model w post :=
  always_model.mpr ⟨.refl hw, hpost⟩

theorem config {post : Config → World β τ → Prop} (hw : Reachable pending w.model)
    (hpost : post w.config w) : Leads seen pending Action.config w post :=
  always_config.mpr ⟨.refl hw, hpost⟩

theorem get {post : World β τ → World β τ → Prop} (hw : Reachable pending w.model)
    (hpost : post w w) : Leads seen pending MonadState.get w post :=
  always_get.mpr ⟨.refl hw, hpost⟩

theorem ask {f : Model β → Except ModelError α} (hw : Reachable pending w.model)
    (hpost : ∀ a, f w.model = .ok a → post a w) : Leads seen pending (Action.ask f) w post :=
  (always_ask f).mpr ⟨fun a ha => ⟨.refl hw, hpost a ha⟩, fun _ _ => .refl hw⟩

theorem find {id : InstanceId} {post : Instance β → World β τ → Prop}
    (hw : Reachable pending w.model) (hpost : ∀ i, w.model.arena.get? id = some i → post i w) :
    Leads seen pending (Action.find id) w post :=
  (always_find id).mpr ⟨fun i hi => ⟨.refl hw, hpost i hi⟩, fun _ => .refl hw⟩

theorem typeOf {id : InstanceId} {post : TypeId → World β τ → Prop}
    (hw : Reachable pending w.model)
    (hpost : ∀ i, w.model.arena.get? id = some i → post i.type w) :
    Leads seen pending (Action.typeOf id) w post :=
  (always_typeOf id).mpr ⟨fun i hi => ⟨.refl hw, hpost i hi⟩, fun _ => .refl hw⟩

/-- A method lookup leaves the model and the state of the language alone. -/
theorem findMethod {id : TypeId} {name : Symbol} {post : FoundMethod β → World β τ → Prop}
    (hw : Reachable pending w.model)
    (hpost : ∀ found w', w'.model = w.model → w'.host = w.host → post found w') :
    Leads seen pending (Action.findMethod id name) w post := by
  refine (always_findMethod id name).mpr ?_
  split
  · exact ⟨.of_same hw rfl rfl, hpost _ _ rfl rfl⟩
  · exact ⟨.refl hw, hpost _ _ rfl rfl⟩

/-! ### Steps that change the model -/

theorem modifyModel {f : Model β → Model β} {post : Unit → World β τ → Prop}
    (hw : Reachable pending w.model) (e : Edit w.model (f w.model))
    (hspared : Spared pending w.model (f w.model))
    (hchanges : w.model.changes.Extends (f w.model).changes)
    (hpost : post () { w with model := f w.model }) :
    Leads seen pending (Action.modifyModel f) w post :=
  (always_modifyModel f).mpr ⟨.of_edit hw e hspared hchanges rfl, hpost⟩

/-- **A change that concerns neither places nor names.** -/
theorem retouch {f : Model β → Model β} {post : Unit → World β τ → Prop}
    (hw : Reachable pending w.model) (r : Retouched w.model (f w.model))
    (hchanges : w.model.changes.Extends (f w.model).changes)
    (hpost : post () { w with model := f w.model }) :
    Leads seen pending (Action.modifyModel f) w post :=
  modifyModel hw (.retouch r) r.spared hchanges hpost

theorem update {id : InstanceId} {f : Instance β → Instance β} {post : Unit → World β τ → Prop}
    (hw : Reachable pending w.model)
    (hr : ∀ i, w.model.arena.get? id = some i → Retouched w.model (w.model.modify id f))
    (hpost : ∀ i, w.model.arena.get? id = some i →
      post () { w with model := w.model.modify id f }) :
    Leads seen pending (Action.update id f) w post :=
  (always_update id f).mpr
    ⟨fun i hi => ⟨.of_edit hw (.retouch (hr i hi)) (hr i hi).spared (.refl _) rfl, hpost i hi⟩,
      fun _ => .refl hw⟩

/-- **A change of one instance that concerns neither its standing nor its names.** -/
theorem amend {id : InstanceId} {f : Instance β → Instance β} {post : Unit → World β τ → Prop}
    (hw : Reachable pending w.model) (hstanding : ∀ i, (f i).standing = i.standing)
    (hmemo : ∀ i, (f i).memo = i.memo) (hactivity : ∀ i, (f i).activity = i.activity)
    (hpost : ∀ i, w.model.arena.get? id = some i →
      post () { w with model := w.model.modify id f }) :
    Leads seen pending (Action.update id f) w post := by
  have hnaming : ∀ i, (f i).naming = i.naming := by
    intro i
    obtain ⟨hfather, hname, -, hchildren, horder, -⟩ := Instance.standing_eq (hstanding i)
    simp [Instance.naming, Instance.links, hfather, hname, hchildren, horder, hmemo i]
  exact update hw (fun i _ => .modify _ id hnaming hactivity fun _ i _ => hstanding i) hpost

/-- **A change of an idle instance that keeps its links and names.** -/
theorem arrange {id : InstanceId} {f : Instance β → Instance β} {post : Unit → World β τ → Prop}
    (hw : Reachable pending w.model) (hidle : w.model.busyOf id = 0)
    (hnaming : ∀ i, (f i).naming = i.naming) (hactivity : ∀ i, (f i).activity = i.activity)
    (hpost : ∀ i, w.model.arena.get? id = some i →
      post () { w with model := w.model.modify id f }) :
    Leads seen pending (Action.update id f) w post :=
  update hw (fun _ _ => .modify _ id hnaming hactivity fun h => absurd hidle h) hpost

theorem describe {id : InstanceId} {post : String → World β τ → Prop}
    (hw : Reachable pending w.model)
    (hpost : ∀ name, post name { w with model := w.model.remembering id }) :
    Leads seen pending (Action.describe id) w post :=
  (always_describe id).mpr
    ⟨.of_edit hw (.remember id) (.remembering _ id) (.refl _) rfl, hpost _⟩

/-! ### Refusals -/

/-- What would follow an error does not matter. -/
theorem throw_bind {e : ModelError} {f : γ → Action β τ α} (hw : Reachable pending w.model) :
    Leads seen pending ((MonadExcept.throw e : Action β τ γ) >>= f) w post :=
  bind (P := fun _ _ => False) (.throw hw) fun _ _ _ h => h.elim

/-- An error whose message names an instance; the name is remembered. -/
theorem describe_throw {id : InstanceId} {e : String → ModelError}
    (hw : Reachable pending w.model) :
    Leads seen pending (Action.describe id >>= fun name => (MonadExcept.throw (e name))) w post :=
  bind (P := fun _ _ => True) (.describe hw fun _ => True.intro)
    fun _ _ hr _ => .throw hr.reachable

theorem describe_throw_bind {id : InstanceId} {e : String → ModelError} {f : γ → Action β τ α}
    (hw : Reachable pending w.model) :
    Leads seen pending (Action.describe id >>= fun name =>
      (MonadExcept.throw (e name) : Action β τ γ) >>= f) w post :=
  bind (P := fun _ _ => True) (.describe hw fun _ => True.intro)
    fun _ _ hr _ => .throw_bind hr.reachable

/-! ### Checks and what follows them -/

/-- **A step that only looks**, and what follows it in the same world. -/
theorem look_bind {x : Action β τ γ} {f : γ → Action β τ α} (fact : γ → Prop)
    (hx : Leads seen pending x w fun a w' => w = w' ∧ fact a)
    (hf : ∀ a, fact a → Leads seen pending (f a) w post) :
    Leads seen pending (x >>= f) w post := by
  refine hx.bind ?_
  rintro a w' - ⟨rfl, hfact⟩
  exact hf a hfact

theorem get_bind {f : World β τ → Action β τ α} (hw : Reachable pending w.model)
    (hf : Leads seen pending (f w) w post) :
    Leads seen pending (MonadState.get >>= f) w post :=
  look_bind (fun v => v = w) (get hw ⟨rfl, rfl⟩) fun _ hv => hv ▸ hf

theorem model_bind {f : Model β → Action β τ α} (hw : Reachable pending w.model)
    (hf : Leads seen pending (f w.model) w post) :
    Leads seen pending (Action.model >>= f) w post :=
  look_bind (fun m => m = w.model) (model hw ⟨rfl, rfl⟩) fun _ hm => hm ▸ hf

theorem find_bind {id : InstanceId} {f : Instance β → Action β τ α}
    (hw : Reachable pending w.model)
    (hf : ∀ i, w.model.arena.get? id = some i → Leads seen pending (f i) w post) :
    Leads seen pending (Action.find id >>= f) w post :=
  look_bind _ (find hw fun _ hi => ⟨rfl, hi⟩) hf

theorem ask_bind {ask : Model β → Except ModelError γ} {f : γ → Action β τ α}
    (hw : Reachable pending w.model)
    (hf : ∀ a, ask w.model = .ok a → Leads seen pending (f a) w post) :
    Leads seen pending (Action.ask ask >>= f) w post :=
  look_bind _ (Leads.ask hw fun _ ha => ⟨rfl, ha⟩) hf

theorem ofExcept_bind {r : Except ModelError γ} {f : γ → Action β τ α}
    (hw : Reachable pending w.model)
    (hf : ∀ a, r = .ok a → Leads seen pending (f a) w post) :
    Leads seen pending (Action.ofExcept r >>= f) w post :=
  look_bind _ (ofExcept hw fun _ ha => ⟨rfl, ha⟩) hf

/-- **Passing a busy check** means that the instance is there and idle. -/
theorem ensureNotBusy {id : InstanceId} {operation : String} {post : Unit → World β τ → Prop}
    (hw : Reachable pending w.model)
    (hpost : ∀ i, w.model.arena.get? id = some i → w.model.busyOf id = 0 → post () w) :
    Leads seen pending (Action.ensureNotBusy id operation) w post := by
  unfold Action.ensureNotBusy
  refine find_bind hw fun i hi => ?_
  split
  · exact .describe_throw hw
  · rename_i hidle
    refine .pure hw (hpost i hi ?_)
    rw [Model.busyOf_eq hi]
    simpa [Instance.isBusy] using hidle

theorem ensureNotBusy_bind {id : InstanceId} {operation : String} {f : Unit → Action β τ α}
    (hw : Reachable pending w.model)
    (hf : w.model.busyOf id = 0 → Leads seen pending (f ()) w post) :
    Leads seen pending (Action.ensureNotBusy id operation >>= f) w post :=
  look_bind _ (ensureNotBusy hw fun _ _ hidle => ⟨rfl, hidle⟩) fun _ hidle => hf hidle

end Leads

/-! ## Actions in sequence -/

namespace Follows

/-- Where an action that follows the rules has come to. -/
theorem reached {x : Action β τ α} (hx : Follows seen x) (hw : Reachable pending w.model)
    {r : Except ModelError α} (hr : x.outcome w = some (r, w')) : Reached seen pending w w' := by
  have hend := hx.leads hw r w' hr
  cases r with
  | ok a => exact hend.1
  | error e => exact hend

theorem pure (a : α) : Follows seen (Pure.pure a : Action β τ α) :=
  ⟨fun hw => .pure hw True.intro⟩

theorem throw (e : ModelError) : Follows seen (MonadExcept.throw e : Action β τ α) :=
  ⟨fun hw => .throw hw⟩

theorem bind {x : Action β τ γ} {f : γ → Action β τ α} (hx : Follows seen x)
    (hf : ∀ a, Follows seen (f a)) : Follows seen (x >>= f) :=
  ⟨fun hw => (hx.leads hw).bind fun a _ hr _ => (hf a).leads hr.reachable⟩

theorem attempt {x : Action β τ α} (hx : Follows seen x) : Follows seen (Action.attempt x) :=
  ⟨fun hw => .attempt_follows hx hw⟩

theorem ofExcept (r : Except ModelError α) : Follows seen (Action.ofExcept r : Action β τ α) :=
  ⟨fun hw => .ofExcept hw fun _ _ => True.intro⟩

theorem model : Follows seen (Action.model : Action β τ (Model β)) :=
  ⟨fun hw => .model hw True.intro⟩

theorem config : Follows seen (Action.config : Action β τ Config) :=
  ⟨fun hw => .config hw True.intro⟩

theorem get : Follows seen (MonadState.get : Action β τ (World β τ)) :=
  ⟨fun hw => .get hw True.intro⟩

theorem ask (f : Model β → Except ModelError α) : Follows seen (Action.ask f : Action β τ α) :=
  ⟨fun hw => .ask hw fun _ _ => True.intro⟩

theorem find (id : InstanceId) : Follows seen (Action.find id : Action β τ (Instance β)) :=
  ⟨fun hw => .find hw fun _ _ => True.intro⟩

theorem typeOf (id : InstanceId) : Follows seen (Action.typeOf id : Action β τ TypeId) :=
  ⟨fun hw => .typeOf hw fun _ _ => True.intro⟩

theorem findMethod (id : TypeId) (name : Symbol) :
    Follows seen (Action.findMethod id name : Action β τ (FoundMethod β)) :=
  ⟨fun hw => .findMethod hw fun _ _ _ _ => True.intro⟩

theorem describe (id : InstanceId) : Follows seen (Action.describe id : Action β τ String) :=
  ⟨fun hw => .describe hw fun _ => True.intro⟩

theorem amend {id : InstanceId} {f : Instance β → Instance β}
    (hstanding : ∀ i, (f i).standing = i.standing) (hmemo : ∀ i, (f i).memo = i.memo)
    (hactivity : ∀ i, (f i).activity = i.activity) :
    Follows seen (Action.update id f : Action β τ Unit) :=
  ⟨fun hw => .amend hw hstanding hmemo hactivity fun _ _ => True.intro⟩

/-- A change beside the arena. -/
theorem modifyModel {f : Model β → Model β} (harena : ∀ m, (f m).arena = m.arena)
    (hproducts : ∀ m, (f m).products = m.products)
    (hchanges : ∀ m : Model β, m.changes.Extends (f m).changes) :
    Follows seen (Action.modifyModel f : Action β τ Unit) := by
  constructor
  intro pending w hw
  refine .retouch hw (.of_arena (harena _) ?_) (hchanges _) True.intro
  intro y hy
  rw [hproducts] at hy
  exact Or.inl hy

theorem describe_throw (id : InstanceId) (e : String → ModelError) :
    Follows seen (Action.describe id >>= fun name => (MonadExcept.throw (e name) : Action β τ α)) :=
  ⟨fun hw => .describe_throw hw⟩

end Follows

end ProductModel
