import ProductModel.Proofs.Arena.Growth
import ProductModel.Proofs.Run.Permissive
import ProductModel.Proofs.Run.Settling

/-!
# Values are valid as long as properties are handled with care

Bodies and callers handle properties with care if they declare a key only while it is not declared,
declare no computed choices, nothing for which the type of the instance has accessors, and otherwise
remove properties, change their states, set their values under the full procedure, and read.  From
outside also instances are created; the types are those that there were before the first one.

`Body.Sighted.answersValid` says what comes of this: in every model that comes into view, to a
caller or to a body at any depth of nesting, a declared property reads as no value or as one that
its definition admits, and nothing is stored under a key that is not declared.

## Design

What bodies do is said by a guard on their operations, so that the statement is about all languages.
Operations of bodies leave the types of instances alone (`World.Settles`), which a change relies on
that is under way; operations from outside only need to keep the properties valid.
-/

namespace ProductModel

open ProductModel.Action

variable {β σ α γ : Type} {w w' : World β (σ × Watch β)} {id : InstanceId} {refusal : ModelError}

/-- **What bodies do that handle properties with care.** -/
def Op.isCareful (m : Model β) : Op β → Bool
  | .setupProperty id d =>
    match m.arena.get? id with
    | some i => !i.properties.contains d.key && d.kind.choiceMethod?.isNone &&
        (m.types.findMethod i.type (Accessor.getter d.key)).isNone &&
        (m.types.findMethod i.type (Accessor.setter d.key)).isNone
    | none => true
  | .removeProperty _ _ | .setPropertyState _ _ _ | .setProperty _ _ _ => true
  | .getProperty _ _ | .propertyState _ _ | .absoluteName _ | .describe _ => true
  | _ => false

/-- **What callers do that handle properties with care**: they make the types, then the instances,
and have them work. -/
def Op.isCarefulOutside (m : Model β) : Op β → Bool
  | .register _ | .redefine _ _ => m.arena.slots.isEmpty
  | .instantiate _ _ _ _ | .setProductData _ _ | .setProgram _ _ => true
  | op => op.isCareful m

/-- **What properties read as, and what is stored for them**, in a model whose values are valid. -/
structure Model.AnswersValid (m : Model β) : Prop where
  /-- reading needs no body, and succeeds wherever lookups find what the types declare -/
  answers : ∀ {id i key d}, m.arena.get? id = some i → i.properties.get? key = some d →
    ∀ {τ : Type} (L : Language β τ) (allowance : Nat) (w : World β τ), w.model = m → w.Truthful →
      ∃ v w', (perform L (allowance + 1) (.getProperty id key)).outcome w = some (.ok v, w') ∧
        (v = .void ∨ d.validate v = .ok ())
  unused : ∀ {id i key}, m.arena.get? id = some i → i.properties.contains key = false →
    i.dynamic.get? key = none

/-- Valid instances answer with what is stored. -/
theorem Model.Valid.answers {m : Model β} (h : m.Valid) : m.AnswersValid where
  answers := by
    intro id i key d hi hd τ L allowance w hmodel htruthful
    have hplain : w.Plain i.properties i.type := htruthful.plain (hmodel ▸ h hi)
    obtain ⟨w', hread, -⟩ := bodiless_getProperty key (hmodel ▸ hi) hplain
    refine ⟨_, w', hread _, ?_⟩
    rw [Instance.propertyValue, if_pos (by rw [PropertyTable.contains_eq_isSome, hd]; rfl)]
    exact (h hi).holds hd
  unused hi hkey := (h hi).unused (PropertyTable.get?_eq_none_iff.mpr hkey)

/-! ## Operations of bodies -/

/-- **A careful operation keeps properties valid**, if the bodies do that it runs. -/
theorem Engine.Tame.step_always {e : Engine β (σ × Watch β)} (h : e.Tame) {op : Op β}
    (hw : w.Valid) (hop : op.isCareful w.model = true) :
    (e.step op).Always w (fun _ => w.Settles) fun _ => w.Settles := by
  cases op with
  | setupProperty id d =>
    refine Settling.always_setupProperty hw fun i hi => ?_
    unfold Op.isCareful at hop
    dsimp only at hop
    rw [hi] at hop
    simpa [Registry.Accessorless, and_assoc] using hop
  | removeProperty id key => exact (Settling.removeProperty id key).always hw
  | setPropertyState id key state => exact (Settling.setPropertyState id key state).always hw
  | setProperty id key v => exact (h.setProperty id key v).always hw
  | getProperty _ _ | propertyState _ _ | absoluteName _ | describe _ =>
    exact (Settling.of_respects
      (h.respectful.step_of_reads World.heedless_keepsValid.toNeutral rfl)).always hw
  | _ => cases hop

/-- What is settled from a world on lasts. -/
theorem World.Settles.lasting (w : World β (σ × Watch β)) : Lasting w.Settles where
  host host hw hsights := by
    refine ⟨⟨hw.valid.validates, hw.valid.truthful, hw.valid.stored, hw.valid.model, ?_⟩,
      hw.types, hw.type⟩
    intro s hs
    rcases hsights s hs with hold | hnow
    · exact hw.valid.seen s hold
    · rw [hnow]
      exact hw.valid.model

theorem World.Valid.lasting : Lasting (World.Valid : World β (σ × Watch β) → Prop) where
  host host hw hsights :=
    ((World.Settles.lasting _).host host (World.Settles.refl hw) hsights).valid

section Bodies

variable {ω : Type} {ans : ω → Type} {handler : (op : ω) → Action β (σ × Watch β) (ans op)}
  {allowed : Model β → ω → Bool}

/-- **A guarded body keeps properties valid** if what is allowed does. -/
theorem settling_guarded
    (hhandler : ∀ {w} op, w.Valid → allowed w.model op = true →
      (handler op).Always w (fun _ => w.Settles) fun _ => w.Settles)
    (p : Program ω ans (Model β) σ ModelError α) :
    Settling ((p.guarded allowed refusal).watched.run handler) :=
  ⟨fun {w} hw => always_guarded (World.Settles.lasting w)
    (fun op hw' hop => hw'.always (hhandler op hw'.valid hop)) p (.refl hw)⟩

theorem settling_guardedAs
    (hhandler : ∀ {w} op, w.Valid → allowed w.model op = true →
      (handler op).Always w (fun _ => w.Settles) fun _ => w.Settles)
    (p : Program ω ans (Model β) σ ModelError α) (work : Model β → AtWork) :
    Settling (((p.guarded allowed refusal).watchedAs work).run handler) :=
  ⟨fun {w} hw => always_guardedAs (World.Settles.lasting w)
    (fun op hw' hop => hw'.always (hhandler op hw'.valid hop)) p work (.refl hw)⟩

end Bodies

/-- An engine is tame if the careful operations keep properties valid that its bodies perform. -/
theorem tame_of_careful {L : Language β σ} {allowance : Nat}
    (h : ∀ {w : World β (σ × Watch β)} op, w.Valid → op.isCareful w.model = true →
      (perform (L.guarded Op.isCareful refusal).watched allowance op).Always w
        (fun _ => w.Settles) fun _ => w.Settles) :
    ((L.guarded Op.isCareful refusal).watched.engine allowance).Tame where
  method body call := settling_guarded h (L.method body call)
  initializer body call := by
    obtain ⟨receiver, args⟩ := call
    cases receiver with
    | none => exact settling_guarded h _
    | some id => exact settling_guardedAs h _ _
  evaluate body id key := settling_guarded h (L.evaluate body id key)

/-- **Careful operations of guarded languages keep properties valid**, however deep their bodies are
nested. -/
theorem perform_careful (L : Language β σ) (refusal : ModelError) (allowance : Nat) (op : Op β)
    (hw : w.Valid) (hop : op.isCareful w.model = true) :
    (perform (L.guarded Op.isCareful refusal).watched allowance op).Always w
      (fun _ => w.Settles) fun _ => w.Settles := by
  induction allowance generalizing op w with
  | zero => exact always_exhausted
  | succ allowance ih => exact (tame_of_careful fun op hw hop => ih op hw hop).step_always hw hop

theorem Language.tame_guarded (L : Language β σ) (refusal : ModelError) (allowance : Nat) :
    ((L.guarded Op.isCareful refusal).watched.engine allowance).Tame :=
  tame_of_careful fun op hw hop => perform_careful L refusal allowance op hw hop

/-! ## Creation -/

/-- A change after which every instance holds what one held before, or nothing yet. -/
theorem World.Valid.of_back (h : w.Valid) {m : Model β} (htypes : m.types = w.model.types)
    (hstored : m.arena.Stored) (hback : ∀ {y j}, m.arena.get? y = some j →
      (j.properties = {} ∧ j.dynamic = {}) ∨
        ∃ i, w.model.arena.get? y = some i ∧ j.holdings = i.holdings) :
    World.Valid { w with model := m } := by
  refine ⟨h.validates, h.truthful.edited (Or.inl htypes), hstored, ?_, h.seen⟩
  intro y j hj
  rcases hback hj with ⟨hproperties, hdynamic⟩ | ⟨i, hi, heq⟩
  · exact .of_blank hproperties hdynamic
  · rw [htypes]
    exact (h.model hi).of_holdings heq

/-- An instance that gets a child, or loses one, holds what it held. -/
theorem Arena.adopt_holds {a : Arena β} {father : Option InstanceId} {y : InstanceId} :
    ((a.adopt father id).get? y).map Instance.holdings = (a.get? y).map Instance.holdings := by
  cases father with
  | none => rw [adopt, get?_addRoot]
  | some father => exact map_get?_modify (f := (·.withChild id)) _ (fun _ _ => rfl) y

/-- What is left of an arena without a subtree holds what it held. -/
theorem Arena.prune_holds {a : Arena β} {father : Option InstanceId} {y : InstanceId}
    {j : Instance β} (hj : (a.prune id father).get? y = some j) :
    ∃ i, a.get? y = some i ∧ j.holdings = i.holdings := by
  have hkept : ∀ {k}, (a.removeAll (a.postorder id)).get? y = some k → a.get? y = some k := by
    intro k hk
    rw [get?_removeAll] at hk
    split at hk
    · cases hk
    · exact hk
  cases father with
  | none => exact ⟨j, hkept hj, rfl⟩
  | some father =>
    have hsame : ((a.prune id (some father)).get? y).map Instance.holdings =
        ((a.removeAll (a.postorder id)).get? y).map Instance.holdings :=
      map_get?_modify (f := (·.withoutChild id)) _ (fun _ _ => rfl) y
    obtain ⟨k, hk, heq⟩ := exists_get?_of_map_eq hsame.symm hj
    exact ⟨k, hkept hk, heq.symm⟩

/-- **Valid properties stay valid**, if not the types of instances what they were. -/
def World.StaysValid (w w' : World β (σ × Watch β)) : Prop :=
  w.Valid → w'.Valid

theorem World.neutral_staysValid : Neutral (@World.StaysValid β σ) where
  refl _ hw := hw
  trans h h' hw := h' (h hw)
  remembering _ _ hremembered hw := (hw.remembered hremembered.toOnlyMemos).valid
  lookingUp _ type name hw := (hw.lookingUp type name).valid

theorem Settling.staysValid {x : Action β (σ × Watch β) α} (hx : Settling x) :
    Respects World.StaysValid x :=
  respects_imp_iff.mpr fun hw => (hx.always hw).mono (fun _ _ h => h.valid) fun _ _ h => h.valid

/-- A number that is given out is no matter to properties. -/
theorem World.Valid.counting (h : w.Valid) : w.counting.Valid :=
  h.of_back rfl h.stored.nextOrder fun hj => Or.inr ⟨_, by simpa using hj, rfl⟩

/-- **A new instance holds nothing.** -/
theorem World.Valid.adopted {i : Instance β} {b : Arena β} (h : w.Valid)
    (hins : w.model.arena.nextOrder.2.insert i = .ok (id, b)) (hproperties : i.properties = {})
    (hdynamic : i.dynamic = {}) (father : Option InstanceId) :
    World.Valid { w with model := { w.model with arena := b.adopt father id } } := by
  have hstored := h.stored.nextOrder
  refine h.of_back rfl ((hstored.insert hins).adopt father id) fun {y j} hj => ?_
  obtain ⟨k, hk, heq⟩ := Arena.exists_get?_of_map_eq Arena.adopt_holds.symm hj
  obtain ⟨-, hrest⟩ := Prod.mk.inj heq
  obtain ⟨hproperties', hdynamic'⟩ := Prod.mk.inj hrest
  rw [Arena.get?_insert hstored hins] at hk
  split at hk
  · cases hk
    exact Or.inl ⟨hproperties'.symm.trans hproperties, hdynamic'.symm.trans hdynamic⟩
  · exact Or.inr ⟨k, by simpa using hk, heq.symm⟩

/-- **What is left without a subtree** holds what it held. -/
theorem World.Valid.dropped (h : w.Valid) (id : InstanceId) (father : Option InstanceId) :
    World.Valid { w with model := (w.model.removeSubtree id father).2 } := by
  have harena := w.model.arena_removeSubtree id father
  refine h.of_back rfl ?_ fun hj => Or.inr ?_
  · rw [harena]
    exact h.stored.prune id father
  · rw [harena] at hj
    exact Arena.prune_holds hj

namespace Engine.Tame

variable {e : Engine β (σ × Watch β)} (h : e.Tame)
include h

/-- **An initializer declares and sets** what it likes; if it fails, its instance goes. -/
theorem creative : e.Creative World.StaysValid where
  placing := World.neutral_staysValid.place (fun _ hw => hw.counting)
    (fun hins hw => hw.adopted hins rfl rfl _) fun _ _ _ _ hw =>
      World.Settles.valid (hw.touched _ fun _ => rfl)
  initializing id m args :=
    World.neutral_staysValid.bind (World.neutral_staysValid.checkCall m (some id) args) fun _ =>
      (h.initializer _ _).staysValid
  living id := Settling.staysValid (.updateIfThere id fun _ => rfl)
  discarding := World.neutral_staysValid.discard fun _ id father hw => hw.dropped id father

omit h in
/-- Before there are instances, types may change. -/
theorem changeTypes_valid {change : Registry β → Except TypeError (TypeId × Registry β)}
    (hlater : ∀ {r id r'}, change r = .ok (id, r') → r.epoch < r'.epoch) (hw : w.Valid)
    (hslots : w.model.arena.slots.isEmpty = true) :
    (Engine.changeTypes change).Always w (fun _ => World.Valid) fun _ => World.Valid := by
  unfold Engine.changeTypes
  rw [always_bind, always_model, always_bind, always_ofExcept]
  refine ⟨?_, fun _ _ => hw⟩
  rintro ⟨id, types⟩ hchange
  dsimp only
  rw [always_bind, always_modifyModel, always_pure]
  refine ⟨hw.validates, hw.truthful.edited (Or.inr (hlater (ok_of_mapError hchange))), hw.stored,
    ?_, hw.seen⟩
  intro y i hi
  have hnone : w.model.arena.get? y = none := by
    unfold Arena.get? Arena.slot?
    rw [List.isEmpty_iff.mp hslots]
    rfl
  rw [hnone] at hi
  cases hi

/-- **What careful callers do keeps properties valid.** -/
theorem step_valid {op : Op β} (hw : w.Valid) (hop : op.isCarefulOutside w.model = true) :
    (e.step op).Always w (fun _ => World.Valid) fun _ => World.Valid := by
  have hinside : op.isCareful w.model = true →
      (e.step op).Always w (fun _ => World.Valid) fun _ => World.Valid := fun hop =>
    (h.step_always hw hop).mono (fun _ _ h => h.valid) fun _ _ h => h.valid
  cases op with
  | register d =>
    show (Engine.changeTypes (·.register d)).Always w _ _
    exact changeTypes_valid (fun {r id r'} hr => r.epoch_lt_of_change (c := .register d) hr) hw hop
  | redefine typeName d =>
    show (Engine.changeTypes (·.redefine typeName d)).Always w _ _
    exact changeTypes_valid
      (fun {r id r'} hr => r.epoch_lt_of_change (c := .redefine typeName d) hr) hw hop
  | instantiate typeName father name args =>
    exact respects_imp_iff.mp
      (h.creative.instantiate World.neutral_staysValid typeName father name args) hw
  | setProductData id data =>
    show (Action.setProductData id data).Always w _ _
    unfold Action.setProductData
    refine respects_imp_iff.mp (World.neutral_staysValid.bind (World.neutral_staysValid.find id)
      fun _ => respects_imp_iff.mpr fun {w} hw => ?_) hw
    rw [always_modifyModel]
    exact World.Settles.valid (hw.edited (m := { w.model with
      products := w.model.products.insert id data }) rfl hw.stored fun _ => rfl)
  | setProgram id program =>
    have hset : Respects World.StaysValid (Action.find program >>= fun _ =>
        Action.update id (fun i => { i with program := some program }) :
        Action β (σ × Watch β) Unit) :=
      World.neutral_staysValid.bind (World.neutral_staysValid.find program) fun _ =>
        Settling.staysValid (.update id fun _ => rfl)
    exact respects_imp_iff.mp hset hw
  | _ => exact hinside hop

end Engine.Tame

/-! ## Runs -/

/-- **Values are valid in every model that comes into view** in a run of a careful program whose
bodies are careful, to the caller or to a body at any depth of nesting. -/
theorem Body.Sighted.answersValid {L : Language β σ} {allowance : Nat} {p : Body β σ α}
    {config : Config} {host : σ} {s : Sight β} (hvalidates : config.validateProperties = true)
    (h : Body.Sighted (L.guarded Op.isCareful refusal) allowance
      (p.guarded Op.isCarefulOutside refusal) config host s) : s.model.AnswersValid := by
  obtain ⟨r, w, hrun, hs⟩ := h
  have hstart : World.Valid (World.fresh config host : World β (σ × Watch β)) := by
    refine ⟨hvalidates, fun _ => MethodCache.sound_of_entries_eq rfl, Arena.stored_empty, ?_, ?_⟩
    · intro y i hi
      cases (Arena.get?_empty y).symm.trans hi
    · exact fun _ hs => nomatch hs
  have hhandler : ∀ {w : World β (σ × Watch β)} op, w.Valid →
      op.isCarefulOutside w.model = true →
      (perform (L.guarded Op.isCareful refusal).watched allowance op).Always w
        (fun _ => World.Valid) fun _ => World.Valid := by
    intro w op hw hop
    cases allowance with
    | zero => exact always_exhausted
    | succ allowance => exact (L.tame_guarded refusal allowance).step_valid hw hop
  have hkept := always_guarded World.Valid.lasting hhandler p hstart r w hrun
  have hw : w.Valid := by cases r <;> exact hkept
  exact Model.Valid.answers (hw.seen s hs)

/-! ## A panel that is not to be wide -/

namespace Panel

/-- The width of a panel. -/
def width : PropertyDef :=
  { key := ⟨"width"⟩, name := "Width", kind := .float, bounds := some (.range 0.2 1.2) }

/-- What a wide panel puts in its place. -/
def label : PropertyDef := { key := width.key, name := "Label", kind := .string }

/-- Whether a panel is not wide. -/
def isNarrow (m : Model Bool) (panel : InstanceId) : Bool :=
  (m.arena.get? panel).any fun i =>
    match i.stored width.key with
    | .float x => x ≤ 1.0
    | _ => true

/-- **The code of a panel.**  It is made with a width; a change to a great width is refused, after
the width was replaced by another property of the same key that has a value of its own. -/
def language : Language Bool Unit where
  method initializing call :=
    match call.receiver with
    | none => .pure .void
    | some panel =>
      if initializing then do
        let _ ← Program.call (Op.setupProperty panel width)
        let _ ← Program.call (Op.setProperty panel width.key (.float 0.5))
        return .void
      else do
        if isNarrow (← Program.view) panel then return .bool true
        let _ ← Program.call (Op.removeProperty panel width.key)
        let _ ← Program.call (Op.setupProperty panel label)
        let _ ← Program.call (Op.setProperty panel label.key (.str "wide"))
        return .bool false
  rule _ _ := .pure .accept
  evaluate _ _ _ := .pure ()
  inspect _ _ := .pure ()
  transformed _ _ _ host := host

/-- Makes a panel and tries to make it wide. -/
def widen : Body Bool Unit Bool := do
  let _ ← Program.call (Op.register { name := "Panel", methods := [
    { name := Engine.initializeName, body := true },
    { name := Engine.propsChangedName, body := false }] })
  let panel ← Program.call (Op.instantiate "Panel" none "panel" [])
  Program.call (Op.setProperty panel width.key (.float 1.1))

end Panel

/-- The panel comes into view with its label, and with its width again after that. -/
theorem Body.Sighted.answersValid_panel :
    ∃ s s' : Sight Bool,
      ((s.model.arena.get? ⟨0, 0⟩).any fun i => i.stored Panel.label.key == .str "wide" &&
        i.properties.get? Panel.label.key == some Panel.label) = true ∧ s.model.AnswersValid ∧
      ((s'.model.arena.get? ⟨0, 0⟩).any fun i => i.stored Panel.width.key == .float 0.5 &&
        i.properties.get? Panel.width.key == some Panel.width &&
        s'.model.changes == ⟨[], [Panel.width.key]⟩) = true ∧ s'.model.AnswersValid := by
  let refusal : ModelError := .dispatch (.notCallable "operation")
  have hsighted := Body.exists_sighted (Panel.widen.guarded Op.isCarefulOutside refusal)
    (Panel.language.guarded Op.isCareful refusal) 5 {} ()
  obtain ⟨s, hs, htest⟩ := hsighted
    (fun s => (s.model.arena.get? ⟨0, 0⟩).any fun i => i.stored Panel.label.key == .str "wide" &&
      i.properties.get? Panel.label.key == some Panel.label) (by decide +kernel)
  obtain ⟨s', hs', htest'⟩ := hsighted
    (fun s => (s.model.arena.get? ⟨0, 0⟩).any fun i => i.stored Panel.width.key == .float 0.5 &&
      i.properties.get? Panel.width.key == some Panel.width &&
      s.model.changes == ⟨[], [Panel.width.key]⟩) (by decide +kernel)
  exact ⟨s, s', htest, Body.Sighted.answersValid rfl hs, htest',
    Body.Sighted.answersValid rfl hs'⟩

end ProductModel
