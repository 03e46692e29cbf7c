import ProductModel.Proofs.RefusedChange
import ProductModel.Proofs.Run.Respects

/-!
# Bodies that are modest about an instance

A body is modest about an instance if all it does is to read, and to write, set and declare
properties of that instance.  What it may do besides, by operations that it calls, is done by modest
bodies again.

* `World.Confined` says that nothing but the properties and further attributes of the instance
  differs, remembered names and lookups aside.
* `World.Enriched` says in addition that what is declared stays declared, and that a declared
  property with a stored value keeps one.
* `Language.respectful_modest` says that all modest bodies do is to enrich the instance.

## Design

A change that is refused inside of another one puts back what it found at its own beginning, and so
drops nothing of what was there before.  This is why the relation is one between the beginning of an
operation and its end, and is shown of putting back with respect to the world of the capture.
-/

namespace ProductModel

open ProductModel.Action

variable {β σ α : Type} {w w' w'' : World β σ} {id : InstanceId} {key : Symbol} {v : Value}
  {i j k : Instance β}

/-! ## What modest bodies leave alone -/

namespace Instance

/-- An instance apart from its properties, its further attributes, the mark of a changed instance
and its remembered name. -/
def bare (i : Instance β) : Instance β :=
  { i with dynamic := {}, properties := {}, changed := false, memo := none }

/-- A part that all of these do not concern. -/
theorem eq_of_bare {γ : Type} (h : i.bare = j.bare) (part : Instance β → γ)
    (hpart : ∀ i : Instance β, part i.bare = part i) : part i = part j := by
  rw [← hpart i, h, hpart]

/-- **What is declared stays declared**, and what is stored for it stays stored. -/
structure Grows (i j : Instance β) : Prop where
  declared : ∀ key, i.properties.contains key = true → j.properties.contains key = true
  stored : ∀ key, i.properties.contains key = true → (i.dynamic.get? key).isSome →
    (j.dynamic.get? key).isSome

theorem Grows.refl (i : Instance β) : i.Grows i := ⟨fun _ h => h, fun _ _ h => h⟩

theorem Grows.trans (h : i.Grows j) (h' : j.Grows k) : i.Grows k :=
  ⟨fun key hkey => h'.declared key (h.declared key hkey),
    fun key hkey hslot => h'.stored key (h.declared key hkey) (h.stored key hkey hslot)⟩

/-- Instances with the same properties and further attributes. -/
theorem Grows.of_eq (hproperties : j.properties = i.properties) (hdynamic : j.dynamic = i.dynamic) :
    i.Grows j :=
  ⟨fun _ h => by rw [hproperties]; exact h, fun _ _ h => by rw [hdynamic]; exact h⟩

end Instance

/-- **Nothing but the properties and further attributes of one instance differs**, apart from what
reading leaves behind. -/
structure World.Confined (id : InstanceId) (w w' : World β σ) : Prop where
  types : w'.model.types = w.model.types
  config : w'.config = w.config
  finds : ∀ type name, w'.finds type name = w.finds type name
  others : ∀ y, y ≠ id → (w'.model.arena.get? y).map Instance.forgetName =
    (w.model.arena.get? y).map Instance.forgetName
  bare : (w'.model.arena.get? id).map Instance.bare = (w.model.arena.get? id).map Instance.bare

namespace World.Confined

theorem trans (h : w.Confined id w') (h' : w'.Confined id w'') : w.Confined id w'' :=
  ⟨h'.types.trans h.types, h'.config.trans h.config,
    fun type name => (h'.finds type name).trans (h.finds type name),
    fun y hy => (h'.others y hy).trans (h.others y hy), h'.bare.trans h.bare⟩

/-- The instance is still there. -/
theorem forth (h : w.Confined id w') (hi : w.model.arena.get? id = some i) :
    ∃ j, w'.model.arena.get? id = some j ∧ j.bare = i.bare :=
  Arena.exists_get?_of_map_eq h.bare hi

theorem of_apart (h : w.Apart id w') (hi : w.model.arena.get? id = some i)
    (hj : w'.model.arena.get? id = some j) (hbare : j.bare = i.bare) : w.Confined id w' :=
  ⟨h.types, h.config, h.finds, fun _ hy => by rw [h.others _ hy],
    by rw [hi, hj, Option.map_some, Option.map_some, hbare]⟩

/-- A change of the instance. -/
theorem modify (w : World β σ) (id : InstanceId) {f : Instance β → Instance β}
    (hbare : ∀ i, (f i).bare = i.bare) :
    w.Confined id { w with model := w.model.modify id f } :=
  ⟨rfl, rfl, fun _ _ => rfl, fun _ hy => congrArg _ (Arena.get?_modify_of_ne hy f),
    Arena.map_get?_modify _ (fun i _ => hbare i) id⟩

end World.Confined

/-- **An instance gains properties and values**, and nothing but its properties and further
attributes differs. -/
structure World.Enriched (id : InstanceId) (w w' : World β σ) : Prop where
  confined : w.Confined id w'
  grows : ∀ {i j}, w.model.arena.get? id = some i → w'.model.arena.get? id = some j → i.Grows j

namespace World.Enriched

theorem trans (h : w.Enriched id w') (h' : w'.Enriched id w'') : w.Enriched id w'' := by
  refine ⟨h.confined.trans h'.confined, fun {i k} hi hk => ?_⟩
  obtain ⟨j, hj, -⟩ := h.confined.forth hi
  exact (h.grows hi hj).trans (h'.grows hj hk)

/-- A change beside the instances. -/
theorem of_arena (htypes : w'.model.types = w.model.types) (hconfig : w'.config = w.config)
    (hfinds : ∀ type name, w'.finds type name = w.finds type name)
    (harena : w'.model.arena = w.model.arena) : w.Enriched id w' := by
  refine ⟨⟨htypes, hconfig, hfinds, fun y _ => by rw [harena], by rw [harena]⟩, ?_⟩
  intro i j hi hj
  rw [harena, hi] at hj
  cases hj
  exact .refl i

/-- A change of the instance by which it gains. -/
theorem modify (hi : w.model.arena.get? id = some i) {f : Instance β → Instance β}
    (hbare : ∀ i, (f i).bare = i.bare) (hgrows : i.Grows (f i)) :
    w.Enriched id { w with model := w.model.modify id f } := by
  refine ⟨.modify w id hbare, fun {i' j} hi' hj => ?_⟩
  rw [hi] at hi'
  cases hi'
  change (w.model.arena.modify id f).get? id = some j at hj
  rw [Arena.get?_modify_self, hi] at hj
  cases hj
  exact hgrows

end World.Enriched

/-- **Enriching does not notice what reading leaves behind.** -/
theorem World.tolerant_enriched (id : InstanceId) :
    Tolerant (World.Enriched id : World β σ → World β σ → Prop) where
  refl _ := .of_arena rfl rfl (fun _ _ => rfl) rfl
  trans h h' := h.trans h'
  host _ _ := .of_arena rfl rfl (fun _ _ => rfl) rfl
  remembering w arena honly := by
    refine ⟨⟨rfl, rfl, fun _ _ => rfl, fun y _ => honly.same y,
      honly.map_eq _ (fun _ => rfl) id⟩, fun {i j} hi hj => ?_⟩
    obtain ⟨i', hi', hji⟩ := honly.back hj
    rw [hi] at hi'
    cases hi'
    exact .of_eq (Instance.eq_of_forgetName hji (·.properties) fun _ => rfl)
      (Instance.eq_of_forgetName hji (·.dynamic) fun _ => rfl)
  lookingUp w type name := by
    have hagrees := World.Agrees.lookingUp w type name
    exact .of_arena (by rw [hagrees.model]) hagrees.config hagrees.finds (by rw [hagrees.model])
  changing _ _ := .of_arena rfl rfl (fun _ _ => rfl) rfl

/-! ## What modest bodies do -/

/-- **Operations that are modest about an instance.** -/
def Op.isModest (id : InstanceId) : Op β → Bool
  | .findMethod _ _ | .resolve _ _ | .getAttr _ _ | .evalBinary _ _ _ => true
  | .call _ _ _ | .callStatic _ _ _ | .callSuper _ _ _ _ | .callSuperIfAny _ _ _ _ => true
  | .absoluteName _ | .describe _ | .snapshot _ | .info => true
  | .propertyState _ _ | .getProperty _ _ | .choices _ _ => true
  | .setupProperty x _ | .writeProperty x _ _ | .setProperty x _ _ => x = id
  | _ => false

/-- **The language whose bodies are modest** about an instance. -/
def Language.modest (L : Language β σ) (id : InstanceId) (refusal : ModelError) : Language β σ :=
  L.guarded (fun _ op => op.isModest id) refusal

/-- A table in which a property is declared, or declared anew, declares what it declared. -/
theorem PropertyTable.contains_setup {t : PropertyTable} (d : PropertyDef)
    (h : t.contains key = true) : (t.setup d).2.contains key = true := by
  obtain ⟨entry, hmem, hkey⟩ := List.any_eq_true.mp h
  unfold setup
  cases t.find? d.key with
  | none =>
    exact List.any_eq_true.mpr ⟨entry, List.mem_append_left _ hmem, hkey⟩
  | some old =>
    dsimp only
    split
    · exact h
    · refine List.any_eq_true.mpr ⟨_, List.mem_map.mpr ⟨entry, hmem, rfl⟩, ?_⟩
      dsimp only
      split
      · -- The new definition has the key of the old one.
        rename_i hsame
        rw [beq_iff_eq] at hsame hkey ⊢
        exact hsame.symm.trans hkey
      · exact hkey

theorem modest_setupProperty (id : InstanceId) (d : PropertyDef) :
    Respects (World.Enriched id) (setupProperty id d : Action β σ Bool) :=
  (World.tolerant_enriched id).setupProperty fun _ i hi =>
    .modify (f := fun j => { j with properties := (i.properties.setup d).2 }) hi (fun _ => rfl)
      ⟨fun _ hkey => PropertyTable.contains_setup d hkey, fun _ _ hslot => hslot⟩

namespace Engine.Respectful

variable {e : Engine β σ} (h : e.Respectful (World.Enriched id))
include h

theorem modest_writeProperty (key : Symbol) (v : Value) :
    Respects (World.Enriched id) (e.writeProperty id key v) := by
  refine h.writeProperty (World.tolerant_enriched id).toHeedless fun w i hi => ?_
  refine .modify (f := fun i => { i with dynamic := i.dynamic.insert key v }) hi (fun _ => rfl)
    ⟨fun _ hkey => hkey, fun key' _ hslot => ?_⟩
  by_cases hkey : key' = key
  · rw [hkey, Association.get?_insert_self]
    rfl
  · rwa [Association.get?_insert_of_ne _ hkey]

/-- **Properties are put back** as they were captured, from the point of view of the capture. -/
theorem restore_always {before : PropertyCapture} (hi : w.model.arena.get? id = some i)
    (htable : before.table = i.properties) (hw : w.Enriched id w') :
    (e.restore id before).Always w' (fun _ => w.Enriched id) fun _ => w.Enriched id := by
  have hR := World.tolerant_enriched (β := β) (σ := σ) id
  unfold Engine.restore
  rw [always_bind, always_update]
  refine ⟨fun j hj => ?_, fun _ => hw⟩
  refine (h.restoreValues hR h.modest_writeProperty before.values).always_after hR ?_
  refine ⟨hw.confined.trans (.modify w' id fun _ => rfl), fun {i' k} hi' hk => ?_⟩
  rw [hi] at hi'
  cases hi'
  change (w'.model.arena.modify id _).get? id = some k at hk
  rw [Arena.get?_modify_self, hj] at hk
  cases hk
  refine ⟨fun key hkey => htable ▸ hkey, fun key hkey hslot => ?_⟩
  -- What was declared at the capture is not among what was added since.
  have hkept : key ∉ j.properties.keys.filter (!before.table.contains ·) := by
    intro hadded
    have hout := (List.mem_filter.mp hadded).2
    rw [htable, hkey] at hout
    cases hout
  show ((_ : Association Symbol Value).get? key).isSome = true
  rw [Association.get?_foldl_erase _ _ hkept]
  exact (hw.grows hi hj).stored key hkey hslot

theorem rollBack_always {before : PropertyCapture} (hi : w.model.arena.get? id = some i)
    (htable : before.table = i.properties) (hw : w.Enriched id w')
    (accepted : Except ModelError Bool) :
    (e.rollBack id before accepted).Always w' (fun _ => w.Enriched id)
      fun _ => w.Enriched id := by
  have hR := World.tolerant_enriched (β := β) (σ := σ) id
  have hkeys : (currentKeys : Action β σ (List Symbol)).outcome w' =
      some (.ok w'.model.changes.current, w') := rfl
  unfold Engine.rollBack
  rw [always_bind_of_ok hkeys, always_bind]
  exact (h.restore_always hi htable hw).mono
    (fun _ _ hback => (h.notice hR id _ accepted).always_after hR hback) fun _ _ hback => hback

/-- What is captured is the table of the moment. -/
theorem capture_always (w : World β σ) :
    (e.capture id).Always w
      (fun before w' => w.Enriched id w' ∧
        ∃ i, w.model.arena.get? id = some i ∧ before.table = i.properties)
      fun _ => w.Enriched id := by
  have hR := World.tolerant_enriched (β := β) (σ := σ) id
  unfold Engine.capture
  rw [always_bind, always_find]
  refine ⟨fun i hi => ?_, fun _ => hR.refl w⟩
  dsimp only
  rw [always_bind]
  refine ((h.getProperties hR id _).always w).mono (fun values w' hw => ?_) fun _ _ hw => hw
  exact (always_pure _).mpr ⟨hw, i, hi, rfl⟩

theorem changeValidated (key : Symbol) (v : Value) :
    Respects (World.Enriched id) (e.changeValidated id key v) := by
  have hR := World.tolerant_enriched (β := β) (σ := σ) id
  have hcompare := h.compare hR fun w i hi =>
    World.Enriched.modify (f := fun i : Instance β => { i with changed := true }) hi
      (fun _ => rfl) (.of_eq rfl rfl)
  constructor
  intro w
  refine changeValidated_always hR.toHeedless hcompare ?_
  refine (h.capture_always w).mono ?_ fun _ _ hw => hw
  rintro before w₁ ⟨hw₁, i, hi, htable⟩
  have hstarted : w.Enriched id w₁.starting := hw₁.trans (hR.changing w₁ _)
  exact ⟨(h.writeAndAsk hR (h.modest_writeProperty key v)).always_after hR hstarted,
    fun accepted _ hw₂ => h.rollBack_always hi htable hw₂ accepted⟩

/-- **Setting a value is modest** if bodies are, be it accepted or not. -/
theorem modest_setProperty (key : Symbol) (v : Value) :
    Respects (World.Enriched id) (e.setProperty id key v) :=
  h.setProperty_of_change (World.tolerant_enriched id).toHeedless (h.changeValidated key v)

/-- **Modest operations enrich the instance**, if the bodies do that they run. -/
theorem modest_step {op : Op β} (hop : op.isModest id = true) :
    Respects (World.Enriched id) (e.step op) := by
  have hR := World.tolerant_enriched (β := β) (σ := σ) id
  cases op with
  | setupProperty x d =>
    obtain rfl : x = id := of_decide_eq_true hop
    exact modest_setupProperty x d
  | writeProperty x key v =>
    obtain rfl : x = id := of_decide_eq_true hop
    exact h.modest_writeProperty key v
  | setProperty x key v =>
    obtain rfl : x = id := of_decide_eq_true hop
    exact h.modest_setProperty key v
  | _ => first | exact h.step_of_reads hR rfl | cases hop

end Engine.Respectful

/-! ## However deep -/

variable {refusal : ModelError}

theorem respectful_of_modest {L : Language β σ} {allowance : Nat}
    (h : ∀ op : Op β, op.isModest id = true →
      Respects (World.Enriched id) (perform (L.modest id refusal) allowance op)) :
    ((L.modest id refusal).engine allowance).Respectful (World.Enriched id) where
  method body call :=
    .guarded (World.tolerant_enriched id) (fun op hop => (h op hop).always _) (L.method body call)
  evaluate body x key :=
    .guarded (World.tolerant_enriched id) (fun op hop => (h op hop).always _)
      (L.evaluate body x key)

/-- **Modest operations of modest languages enrich the instance**, however deep their bodies are
nested. -/
theorem respects_perform_modest (L : Language β σ) (allowance : Nat) {op : Op β}
    (hop : op.isModest id = true) :
    Respects (World.Enriched id) (perform (L.modest id refusal) allowance op) := by
  induction allowance generalizing op with
  | zero => exact ⟨fun _ => always_exhausted⟩
  | succ allowance ih => exact (respectful_of_modest fun op hop => ih hop).modest_step hop

/-- **All that modest bodies do is to enrich the instance.** -/
theorem Language.respectful_modest (L : Language β σ) (allowance : Nat) :
    ((L.modest id refusal).engine allowance).Respectful (World.Enriched id) :=
  respectful_of_modest fun _ hop => respects_perform_modest L allowance hop

end ProductModel
