import ProductModel.Proofs.AdmittedAlike
import ProductModel.Proofs.DispatchCache
import ProductModel.Proofs.RefusedChange
import ProductModel.Proofs.Run.Considerate
import ProductModel.Proofs.ValidInstances

/-!
# Operations that keep properties valid

An action is `Settling` if it keeps all instances valid and leaves their types as they are.  That is
to respect a relation of worlds (`Settling.of_respects`), one that reading does not show in.  Setting
a value is settling, whatever the bodies declare, remove and set while the change runs, as long as
they are settling themselves (`Engine.Tame.setProperty`).  If the change is refused, the
definitions from before come back, and with them the values from before, or values that are the
same.

The worlds are those of watched runs; a valid world is one in which also every model was valid that
came into view so far.
-/

namespace ProductModel

open ProductModel.Action

variable {β σ α γ : Type} {w w' w'' : World β (σ × Watch β)} {id : InstanceId} {i j : Instance β}

/-- **A world with valid properties**, in which values are checked. -/
structure World.Valid (w : World β (σ × Watch β)) : Prop where
  validates : w.config.validateProperties = true
  truthful : w.Truthful
  stored : w.model.arena.Stored
  model : w.model.Valid
  /-- what came into view before was valid -/
  seen : ∀ s ∈ w.host.2.sights, s.model.Valid

/-- **From one world to another with valid properties**, with the same types and the same types of
instances. -/
structure World.Settles (w w' : World β (σ × Watch β)) : Prop where
  valid : w'.Valid
  types : w'.model.types = w.model.types
  type : ∀ y, (w'.model.arena.get? y).map (·.type) = (w.model.arena.get? y).map (·.type)

namespace World.Settles

theorem refl (h : w.Valid) : w.Settles w := ⟨h, rfl, fun _ => rfl⟩

theorem trans (h : w.Settles w') (h' : w'.Settles w'') : w.Settles w'' :=
  ⟨h'.valid, h'.types.trans h.types, fun y => (h'.type y).trans (h.type y)⟩

/-- An instance of before is there, and has the same type. -/
theorem forth (h : w.Settles w') (hi : w.model.arena.get? id = some i) :
    ∃ j, w'.model.arena.get? id = some j ∧ j.type = i.type :=
  Arena.exists_get?_of_map_eq (h.type id) hi

end World.Settles

/-- Valid properties have no accessors, and truthful look-ups find none. -/
theorem World.Truthful.plain {τ : Type} {w : World β τ} (h : w.Truthful)
    (hvalid : i.Valid w.model.types) : w.Plain i.properties i.type := by
  intro key hkey
  rw [h.finds_eq, h.finds_eq]
  rw [PropertyTable.mem_keys, PropertyTable.contains_eq_isSome, Option.isSome_iff_exists] at hkey
  obtain ⟨d, hd⟩ := hkey
  exact hvalid.plain hd

namespace World.Valid

theorem plain (h : w.Valid) (hi : w.model.arena.get? id = some i) :
    w.Plain i.properties i.type :=
  h.truthful.plain (h.model hi)

/-- A change of the model that leaves alone what instances hold. -/
theorem edited (h : w.Valid) {m : Model β} (htypes : m.types = w.model.types)
    (hstored : m.arena.Stored) (hheld : ∀ y, (m.arena.get? y).map Instance.holdings =
      (w.model.arena.get? y).map Instance.holdings) :
    w.Settles { w with model := m } where
  valid := {
    validates := h.validates
    truthful := h.truthful.edited (Or.inl htypes)
    stored := hstored
    model := by
      intro y j hj
      obtain ⟨i, hi, heq⟩ := Arena.exists_get?_of_map_eq (hheld y).symm hj
      rw [htypes]
      exact (h.model hi).of_holdings heq.symm
    seen := h.seen }
  types := htypes
  type y := by
    have htype := congrArg (Option.map Prod.fst) (hheld y)
    rwa [Option.map_map, Option.map_map] at htype

/-- **A change of one instance** that keeps it valid. -/
theorem modify (h : w.Valid) (hi : w.model.arena.get? id = some i)
    {f : Instance β → Instance β} (htype : (f i).type = i.type)
    (hvalid : (f i).Valid w.model.types) :
    w.Settles { w with model := w.model.modify id f } where
  valid := {
    validates := h.validates
    truthful := h.truthful.edited (Or.inl rfl)
    stored := h.stored.modify f
    model := by
      intro y j hj
      change (w.model.arena.modify id f).get? y = some j at hj
      rw [Arena.get?_modify] at hj
      split at hj
      · rw [hi] at hj
        cases hj
        exact hvalid
      · exact h.model hj
    seen := h.seen }
  types := rfl
  type := by
    refine Arena.map_get?_modify (·.type) fun k hk => ?_
    rw [hi] at hk
    cases hk
    exact htype

/-- A change that leaves alone what the instance holds. -/
theorem touched (h : w.Valid) (id : InstanceId) {f : Instance β → Instance β}
    (hheld : ∀ i, (f i).holdings = i.holdings) :
    w.Settles { w with model := w.model.modify id f } :=
  h.edited rfl (h.stored.modify f) (Arena.map_get?_modify _ fun i _ => hheld i)

theorem remembered (h : w.Valid) {arena : Arena β} (honly : Arena.OnlyMemos w.model.arena arena) :
    w.Settles { w with model := { w.model with arena } } :=
  h.edited rfl (honly.stored h.stored) fun y => honly.map_eq _ (fun _ => rfl) y

theorem changing (h : w.Valid) (changes : ChangeHistory) :
    w.Settles { w with model := { w.model with changes } } :=
  h.edited rfl h.stored fun _ => rfl

theorem agreeing (h : w.Valid) (hagrees : w.Agrees w') : w.Settles w' where
  valid := {
    validates := by
      rw [hagrees.config]
      exact h.validates
    truthful := hagrees.sound h.truthful
    stored := by
      rw [hagrees.model]
      exact h.stored
    model := by
      rw [hagrees.model]
      exact h.model
    seen := by
      rw [hagrees.host]
      exact h.seen }
  types := by rw [hagrees.model]
  type _ := by rw [hagrees.model]

theorem lookingUp (h : w.Valid) (type : TypeId) (name : Symbol) :
    w.Settles (w.lookingUp type name) :=
  h.agreeing (.lookingUp w type name)

/-- Changes that concern one instance, if they keep it valid. -/
theorem apart (h : w.Valid) (hapart : w.Apart id w') (hkeeps : w.Keeps w')
    (hi : w.model.arena.get? id = some i) (hj : w'.model.arena.get? id = some j)
    (htype : j.type = i.type) (hvalid : j.Valid w.model.types) : w.Settles w' where
  valid := {
    validates := by
      rw [hapart.config]
      exact h.validates
    truthful := hkeeps.sound h.truthful
    stored := hkeeps.stored h.stored
    model := by
      intro y k hk
      rw [hapart.types]
      by_cases hy : y = id
      · subst hy
        rw [hj] at hk
        cases hk
        exact hvalid
      · rw [hapart.others y hy] at hk
        exact h.model hk
    seen := by
      rw [hapart.host]
      exact h.seen }
  types := hapart.types
  type y := by
    by_cases hy : y = id
    · subst hy
      rw [hi, hj, Option.map_some, Option.map_some, htype]
    · rw [hapart.others y hy]

end World.Valid

/-- **An action that keeps all properties valid.** -/
structure Settling (x : Action β (σ × Watch β) α) : Prop where
  always : ∀ {w}, w.Valid → x.Always w (fun _ => w.Settles) fun _ => w.Settles

/-- What comes after a part that was settling. -/
theorem World.Settles.always {x : Action β (σ × Watch β) α} (h : w.Settles w')
    (hx : x.Always w' (fun _ => w'.Settles) fun _ => w'.Settles) :
    x.Always w' (fun _ => w.Settles) fun _ => w.Settles :=
  hx.mono (fun _ _ => h.trans) fun _ _ => h.trans

/-- **What becomes of a world with valid properties**; nothing is said of other worlds. -/
def World.KeepsValid (w w' : World β (σ × Watch β)) : Prop :=
  w.Valid → w.Settles w'

/-- Valid properties do not notice what reading leaves behind, nor what is recorded of changes. -/
theorem World.heedless_keepsValid : Heedless (@World.KeepsValid β σ) where
  refl _ hw := .refl hw
  trans h h' hw := (h hw).trans (h' (h hw).valid)
  remembering _ _ hremembered hw := hw.remembered hremembered.toOnlyMemos
  lookingUp _ type name hw := hw.lookingUp type name
  changing _ changes hw := hw.changing changes

namespace Settling

/-- **Settling actions are those that respect a relation**, so that all is known of them that
`Neutral` and `Heedless` say. -/
theorem of_respects {x : Action β (σ × Watch β) α} (hx : Respects World.KeepsValid x) :
    Settling x :=
  ⟨respects_imp_iff.mp hx⟩

theorem respects {x : Action β (σ × Watch β) α} (hx : Settling x) :
    Respects World.KeepsValid x :=
  respects_imp_iff.mpr hx.always

theorem updateIfThere (id : InstanceId) {f : Instance β → Instance β}
    (hheld : ∀ i, (f i).holdings = i.holdings) :
    Settling (Action.updateIfThere id f : Action β (σ × Watch β) _) :=
  .of_respects (World.heedless_keepsValid.updateIfThere fun _ _ _ hw => hw.touched id hheld)

theorem update (id : InstanceId) {f : Instance β → Instance β}
    (hheld : ∀ i, (f i).holdings = i.holdings) :
    Settling (Action.update id f : Action β (σ × Watch β) _) :=
  .of_respects (World.heedless_keepsValid.update fun _ _ _ hw => hw.touched id hheld)

/-- An instance that is not busy leaves everything as it is. -/
theorem always_ensureNotBusy (hw : w.Valid) (operation : String) :
    (Action.ensureNotBusy id operation).Always w (fun _ w' => w' = w) fun _ => w.Settles := by
  unfold Action.ensureNotBusy
  rw [always_bind, always_find]
  refine ⟨fun i _ => ?_, fun _ => .refl hw⟩
  split
  · rw [always_bind, always_describe, always_throw]
    exact hw.remembered (Arena.onlyMemos_describe id)
  · exact (always_pure _).mpr rfl

/-! ## Declaring and removing -/

/-- **A key is declared that is not declared.** -/
theorem always_setupProperty {d : PropertyDef} (hw : w.Valid)
    (hnew : ∀ i, w.model.arena.get? id = some i → i.properties.contains d.key = false ∧
      d.kind.choiceMethod? = none ∧ w.model.types.Accessorless i.type d.key) :
    (Action.setupProperty id d).Always w (fun _ => w.Settles) fun _ => w.Settles := by
  unfold Action.setupProperty
  rw [always_bind]
  refine (always_ensureNotBusy hw _).mono (fun _ w' heq => ?_) fun _ _ h => h
  subst heq
  rw [always_bind, always_find]
  refine ⟨fun i hi => ?_, fun _ => .refl hw⟩
  obtain ⟨hundeclared, hlisted, hplain⟩ := hnew i hi
  dsimp only
  rw [always_bind_of_ok (outcome_update hi _), always_pure]
  exact hw.modify hi rfl ((hw.model hi).setup hundeclared hlisted hplain)

theorem removeProperty (id : InstanceId) (key : Symbol) :
    Settling (Action.removeProperty id key : Action β (σ × Watch β) _) := by
  constructor
  intro w hw
  unfold Action.removeProperty
  rw [always_bind]
  refine (always_ensureNotBusy hw _).mono (fun _ w' heq => ?_) fun _ _ h => h
  subst heq
  rw [always_bind, always_find]
  refine ⟨fun i hi => ?_, fun _ => .refl hw⟩
  dsimp only
  split
  · rw [always_bind_of_ok (outcome_update hi _), always_pure]
    exact hw.modify hi rfl ((hw.model hi).remove key)
  · exact (always_pure _).mpr (.refl hw)

theorem setPropertyState (id : InstanceId) (key : Symbol) (state : PropertyState) :
    Settling (Action.setPropertyState id key state : Action β (σ × Watch β) _) :=
  .of_respects (World.heedless_keepsValid.setPropertyState fun _ _ hi hw =>
    hw.modify hi rfl ((hw.model hi).setState key state))

end Settling

/-! ## Setting values -/

/-- **An engine whose bodies keep properties valid.** -/
structure Engine.Tame (e : Engine β (σ × Watch β)) : Prop where
  method : ∀ body call, Settling (e.run (e.language.method body call))
  initializer : ∀ body call, Settling (e.run (e.language.initializer body call))
  evaluate : ∀ body id key, Settling (e.run (e.language.evaluate body id key))

namespace Engine.Tame

variable {e : Engine β (σ × Watch β)} (h : e.Tame)
include h

/-- What reads keeps properties valid. -/
theorem respectful : e.Respectful World.KeepsValid where
  method body call := (h.method body call).respects
  evaluate body id key := (h.evaluate body id key).respects

/-- **An admitted value is written**, and the product data and the type do as they like. -/
theorem writeAndAsk_always {key : Symbol} {d : PropertyDef} {v : Value} (hw : w.Valid)
    (hi : w.model.arena.get? id = some i) (hd : i.properties.get? key = some d)
    (hv : d.validate v = .ok ()) :
    (e.writeAndAsk id key v).Always w (fun _ => w.Settles) fun _ => w.Settles := by
  have hset : w.finds i.type (Accessor.setter key) = none := by
    rw [hw.truthful.finds_eq]
    exact ((hw.model hi).plain hd).2
  obtain ⟨w', hwrite, hapart, hj, hkeeps⟩ := bodiless_writeProperty v hi hset
  have hsettles : w.Settles w' := hw.apart hapart hkeeps hi hj rfl ((hw.model hi).store hd hv)
  have hannounce := Settling.of_respects
    (h.respectful.announce World.heedless_keepsValid.toNeutral id key)
  unfold Engine.writeAndAsk
  rw [always_bind_of_ok (hwrite e)]
  exact hsettles.always (hannounce.always hsettles.valid)

/-- **Properties are put back** after whatever bodies have done to them. -/
theorem rollBack_always {w₀ : World β (σ × Watch β)} {accepted : Except ModelError Bool}
    (hw₀ : w₀.Valid) (hi : w₀.model.arena.get? id = some i) (hw : w₀.Settles w) :
    (e.rollBack id i.captured accepted).Always w (fun _ => w₀.Settles) fun _ => w₀.Settles := by
  obtain ⟨now, hnow, htype⟩ := hw.forth hi
  have hbefore : i.Valid w.model.types := by
    rw [hw.types]
    exact hw₀.model hi
  have hplain : w.Plain i.properties now.type := by
    rw [htype]
    exact hw.valid.truthful.plain hbefore
  obtain ⟨w', hrestore, hapart, hj, hkeeps⟩ := bodiless_putBack hnow hplain
  have hsettles : w₀.Settles w' := hw.trans <| hw.valid.apart hapart hkeeps hnow hj rfl
    ((hw.valid.model hnow).putBack hbefore htype)
  have hkeys : (Action.currentKeys : Action β (σ × Watch β) (List Symbol)).outcome w =
      some (.ok w.model.changes.current, w) := rfl
  have hnotice := Settling.of_respects
    (h.respectful.notice World.heedless_keepsValid.toNeutral id w.model.changes.current accepted)
  unfold Engine.rollBack
  rw [always_bind_of_ok hkeys, always_bind_of_ok (hrestore e)]
  exact hsettles.always (hnotice.always hsettles.valid)

/-- **A checked change keeps properties valid**, be it accepted or not. -/
theorem changeValidated_always {key : Symbol} {d : PropertyDef} {v : Value} (hw : w.Valid)
    (hi : w.model.arena.get? id = some i) (hd : i.properties.get? key = some d)
    (hv : d.validate v = .ok ()) :
    (e.changeValidated id key v).Always w (fun _ => w.Settles) fun _ => w.Settles := by
  have hR := World.heedless_keepsValid (β := β) (σ := σ)
  -- Comparing sets a mark at most; the write and what undoes it are what has to be looked at.
  have hcompare : ∀ before, Respects World.KeepsValid (e.compare id before) :=
    h.respectful.compare hR.toNeutral fun _ _ _ hw => hw.touched id fun _ => rfl
  obtain ⟨w₁, hcapture, hagrees⟩ := bodiless_capture hi (hw.plain hi)
  have hsettles : w.Settles w₁.starting := by
    have hagreed := hw.agreeing hagrees
    exact hagreed.trans (hagreed.valid.changing _)
  have hi₁ : w₁.starting.model.arena.get? id = some i := by
    show w₁.model.arena.get? id = some i
    rw [hagrees.model, hi]
  refine (Engine.Respectful.changeValidated_always hR hcompare ?_).mono
    (fun _ _ h => h hw) fun _ _ h => h hw
  intro r w' hr
  rw [hcapture e] at hr
  cases hr
  exact ⟨(h.writeAndAsk_always hsettles.valid hi₁ hd hv).mono
      (fun _ _ h₂ _ => hsettles.trans h₂) fun _ _ h₂ _ => hsettles.trans h₂,
    fun accepted w₂ h₂ => (h.rollBack_always hw hi (h₂ hw)).mono
      (fun _ _ h₃ _ => h₃) fun _ _ h₃ _ => h₃⟩

omit h in
/-- A value is checked without a trace, unless choices have to be computed. -/
theorem always_checkValue {d : PropertyDef} {v : Value} (hlisted : d.kind.choiceMethod? = none) :
    (e.checkValue id d v).Always w (fun _ w' => w' = w ∧ d.validate v = .ok ())
      fun _ w' => w' = w := by
  unfold Engine.checkValue Engine.refusal
  rw [always_bind]
  cases hv : d.validate v with
  | error message => simp
  | ok _ => simp [hlisted]

/-- **Setting a value keeps properties valid**, whatever the bodies do while the change runs. -/
theorem setProperty (id : InstanceId) (key : Symbol) (v : Value) :
    Settling (e.setProperty id key v) := by
  have hR := World.heedless_keepsValid (β := β) (σ := σ)
  unfold Engine.setProperty
  refine .of_respects <| hR.bind (hR.modifyChanges _) fun _ => Settling.respects ⟨fun {w} hw => ?_⟩
  rw [always_bind, always_find]
  refine ⟨fun i hi => ?_, fun _ => .refl hw⟩
  split
  · exact (always_pure _).mpr (.refl hw)
  · rename_i d hd
    have hset : (e.checkValue id d v >>= fun _ => e.changeValidated id key v).Always w
        (fun _ => w.Settles) fun _ => w.Settles := by
      rw [always_bind]
      refine (always_checkValue ((hw.model hi).listed hd)).mono ?_ ?_
      · rintro _ w' ⟨rfl, hv⟩
        exact h.changeValidated_always hw hi hd hv
      · rintro _ w' rfl
        exact .refl hw
    dsimp only
    split
    · rw [always_bind, always_throw]
      exact .refl hw
    · rw [always_bind, always_config, if_pos hw.validates]
      exact hset

end Engine.Tame

end ProductModel
