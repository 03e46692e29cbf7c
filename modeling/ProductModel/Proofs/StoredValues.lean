import ProductModel.Engine.PropertyChange
import ProductModel.Proofs.Arena.Lookup
import ProductModel.Proofs.Outcome
import ProductModel.Proofs.Registry.Lookups
import ProductModel.Proofs.SameAsItself

/-!
# Properties without accessors

Where a type has no accessors for a property, its value is stored with the instance, and reading,
writing, capturing and restoring it run no body.  This file says what each of these comes to, in
every world and for every engine.

Reading may look methods up, and lookups are remembered.  `World.Agrees` says that nothing else
differs between two worlds; `World.Apart` allows for changes of one instance and of the record of
changes as well.

Restoring writes a value back only if the present one is not the same.  Since the two zeros are the
same, and a NaN is not the same as itself, what it leaves is `Value.restored`; and a place where
nothing was stored need not stay empty (`slotRestored`).
-/

namespace ProductModel

open ProductModel.Action

variable {β σ : Type} {w w' w'' : World β σ} {id : InstanceId} {i j : Instance β}

/-! ## Method lookups -/

/-- **Nothing but remembered lookups differs.** -/
structure World.Agrees (w w' : World β σ) : Prop where
  model : w'.model = w.model
  config : w'.config = w.config
  host : w'.host = w.host
  finds : ∀ type name, w'.finds type name = w.finds type name
  sound : (w.config.dispatchCache = true → w.cache.Sound w.model.types) →
    w'.config.dispatchCache = true → w'.cache.Sound w'.model.types

namespace World.Agrees

theorem refl (w : World β σ) : w.Agrees w := ⟨rfl, rfl, rfl, fun _ _ => rfl, id⟩

theorem trans (h : w.Agrees w') (h' : w'.Agrees w'') : w.Agrees w'' :=
  ⟨h'.model.trans h.model, h'.config.trans h.config, h'.host.trans h.host,
    fun type name => (h'.finds type name).trans (h.finds type name), h'.sound ∘ h.sound⟩

theorem lookingUp (w : World β σ) (type : TypeId) (name : Symbol) :
    w.Agrees (w.lookingUp type name) := by
  unfold World.lookingUp
  split
  · rename_i hcache
    refine ⟨rfl, rfl, rfl, ?_, fun hsound _ => (hsound hcache).lookup type name⟩
    intro type' name'
    simp only [World.finds, hcache, if_true]
    exact MethodCache.lookup_lookup ..
  · exact .refl w

end World.Agrees

/-! ## What is stored -/

/-- The value that is stored for a key, whether or not it is declared. -/
def Instance.stored (i : Instance β) (key : Symbol) : Value := (i.dynamic.get? key).getD .void

/-- **The value of a property** that has no accessor: as stored, and none if it is not declared. -/
def Instance.propertyValue (i : Instance β) (key : Symbol) : Value :=
  if i.properties.contains key then i.stored key else .void

/-- What is captured of the properties of an instance, if they have no accessors. -/
def Instance.captured (i : Instance β) : PropertyCapture :=
  ⟨i.properties, i.properties.keys.map fun key => (key, i.propertyValue key)⟩

/-- **The declared properties have no accessors** in a world, for a type. -/
def World.Plain (w : World β σ) (t : PropertyTable) (type : TypeId) : Prop :=
  ∀ key ∈ t.keys, w.finds type (Accessor.getter key) = none ∧
    w.finds type (Accessor.setter key) = none

instance (t : PropertyTable) (type : TypeId) : Decidable (w.Plain t type) :=
  inferInstanceAs (Decidable (∀ key ∈ t.keys, w.finds type (Accessor.getter key) = none ∧
    w.finds type (Accessor.setter key) = none))

theorem World.Agrees.plain {t : PropertyTable} {type : TypeId} (h : w.Agrees w')
    (hplain : w.Plain t type) : w'.Plain t type := by
  intro key hkey
  rw [h.finds, h.finds]
  exact hplain key hkey

/-- The keys of a table are the declared ones. -/
theorem PropertyTable.mem_keys {t : PropertyTable} {key : Symbol} :
    key ∈ t.keys ↔ t.contains key = true := by
  unfold keys contains
  rw [List.mem_map, List.any_eq_true]
  constructor
  · rintro ⟨entry, hmem, rfl⟩
    exact ⟨entry, List.mem_mergeSort.mp hmem, beq_self_eq_true _⟩
  · rintro ⟨entry, hmem, hkey⟩
    exact ⟨entry, List.mem_mergeSort.mpr hmem, beq_iff_eq.mp hkey⟩

/-! ## Changes of one instance -/

/-- **Nothing but one instance, the record of changes and remembered lookups differs.** -/
structure World.Apart (id : InstanceId) (w w' : World β σ) : Prop where
  others : ∀ y, y ≠ id → w'.model.arena.get? y = w.model.arena.get? y
  types : w'.model.types = w.model.types
  products : w'.model.products = w.model.products
  config : w'.config = w.config
  host : w'.host = w.host
  finds : ∀ type name, w'.finds type name = w.finds type name

namespace World.Apart

theorem refl (id : InstanceId) (w : World β σ) : w.Apart id w :=
  ⟨fun _ _ => rfl, rfl, rfl, rfl, rfl, fun _ _ => rfl⟩

theorem trans (h : w.Apart id w') (h' : w'.Apart id w'') : w.Apart id w'' :=
  ⟨fun y hy => (h'.others y hy).trans (h.others y hy), h'.types.trans h.types,
    h'.products.trans h.products, h'.config.trans h.config, h'.host.trans h.host,
    fun type name => (h'.finds type name).trans (h.finds type name)⟩

theorem plain {t : PropertyTable} {type : TypeId} (h : w.Apart id w') (hplain : w.Plain t type) :
    w'.Plain t type := by
  intro key hkey
  rw [h.finds, h.finds]
  exact hplain key hkey

theorem modify (id : InstanceId) (w : World β σ) (f : Instance β → Instance β) :
    w.Apart id { w with model := w.model.modify id f } :=
  ⟨fun _ hy => Arena.get?_modify_of_ne hy f, rfl, rfl, rfl, rfl, fun _ _ => rfl⟩

end World.Apart

theorem World.Agrees.apart (h : w.Agrees w') : w.Apart id w' :=
  ⟨fun y _ => by rw [h.model], by rw [h.model], by rw [h.model], h.config, h.host, h.finds⟩

/-- **Slots and remembered lookups stay in order.** -/
structure World.Keeps (w w' : World β σ) : Prop where
  stored : w.model.arena.Stored → w'.model.arena.Stored
  sound : (w.config.dispatchCache = true → w.cache.Sound w.model.types) →
    w'.config.dispatchCache = true → w'.cache.Sound w'.model.types

namespace World.Keeps

theorem refl (w : World β σ) : w.Keeps w := ⟨id, id⟩

theorem trans (h : w.Keeps w') (h' : w'.Keeps w'') : w.Keeps w'' :=
  ⟨h'.stored ∘ h.stored, h'.sound ∘ h.sound⟩

theorem modify (id : InstanceId) (w : World β σ) (f : Instance β → Instance β) :
    w.Keeps { w with model := w.model.modify id f } := ⟨fun h => h.modify f, fun h => h⟩

theorem changing (w : World β σ) (changes : ChangeHistory) :
    w.Keeps { w with model := { w.model with changes } } := ⟨fun h => h, fun h => h⟩

end World.Keeps

theorem World.Agrees.keeps (h : w.Agrees w') : w.Keeps w' :=
  ⟨fun hstored => by rwa [h.model], h.sound⟩

/-- The world in which a key is recorded with the running change. -/
def World.recording (w : World β σ) (key : Symbol) : World β σ :=
  { w with model := { w.model with changes := w.model.changes.record key } }

theorem World.Apart.changing (id : InstanceId) (w : World β σ) (changes : ChangeHistory) :
    w.Apart id { w with model := { w.model with changes } } :=
  ⟨fun _ _ => rfl, rfl, rfl, rfl, rfl, fun _ _ => rfl⟩

/-! ## Values that are written back -/

/-- **What restoring leaves of a value**: the present one if it is the same as the one before, else
the one before. -/
def Value.restored (now before : Value) : Value := if now.same before then now else before

theorem Value.restored_same (now before : Value) :
    (now.restored before).same before = (now.same before || before.same before) := by
  unfold restored
  by_cases hsame : now.same before = true
  · simp [hsame]
  · simp [hsame]

/-- A value without floats is restored exactly. -/
theorem Value.restored_eq {now before : Value} (hfloats : before.floats = []) :
    now.restored before = before := by
  unfold restored
  by_cases hsame : now.same before = true
  · rw [if_pos hsame]
    exact eq_of_same hsame hfloats
  · rw [if_neg hsame]

/-- What is stored after captured values were written back. -/
def writtenBack : List (Symbol × Value) → Association Symbol Value → Association Symbol Value
  | [], stored => stored
  | (key, v) :: rest, stored =>
    writtenBack rest
      (if ((stored.get? key).getD .void).same v then stored else stored.insert key v)

/-- **What restoring leaves in the place of a value**: nothing is stored if nothing was and the
absent value is the one to be restored. -/
def slotRestored (now : Option Value) (before : Value) : Option Value :=
  if (now.getD .void).same before then now else some before

theorem slotRestored_slotRestored (now : Option Value) (before : Value) :
    slotRestored (slotRestored now before) before = slotRestored now before := by
  unfold slotRestored
  by_cases hsame : (now.getD .void).same before = true
  · rw [if_pos hsame, if_pos hsame]
  · rw [if_neg hsame, Option.getD_some, ite_self]

/-- A stored value is restored over another one. -/
theorem slotRestored_some (now before : Value) :
    slotRestored (some now) before = some (now.restored before) := by
  unfold slotRestored Value.restored
  rw [Option.getD_some]
  split <;> rfl

/-- The value that is found in a place afterwards is the restored one. -/
theorem getD_slotRestored (now : Option Value) (before : Value) :
    (slotRestored now before).getD .void = (now.getD .void).restored before := by
  unfold slotRestored Value.restored
  split <;> rfl

/-- **Every place that is written back is restored**, and all others are left alone. -/
theorem get?_writtenBack (f : Symbol → Value) (keys : List Symbol)
    (stored : Association Symbol Value) (key : Symbol) :
    (writtenBack (keys.map fun key => (key, f key)) stored).get? key =
      if key ∈ keys then slotRestored (stored.get? key) (f key) else stored.get? key := by
  induction keys generalizing stored with
  | nil => rfl
  | cons first keys ih =>
    -- Writing the first value back concerns the first key only.
    have hstep : (if ((stored.get? first).getD .void).same (f first) then stored
        else stored.insert first (f first)).get? key =
        if key = first then slotRestored (stored.get? key) (f key) else stored.get? key := by
      unfold slotRestored
      by_cases hkey : key = first
      · subst hkey
        rw [if_pos rfl]
        split
        · rfl
        · exact Association.get?_insert_self _ _ _
      · rw [if_neg hkey]
        split
        · rfl
        · exact Association.get?_insert_of_ne _ hkey _
    rw [List.map_cons, writtenBack, ih, hstep]
    by_cases hkey : key = first
    · -- A key that comes twice is written back once and found to be right the second time.
      subst hkey
      simp [slotRestored_slotRestored]
    · simp [hkey]

/-! ## Reading -/

/-- **An action comes to a result without running a body**: the engine makes no difference. -/
def Bodiless {α : Type} (x : Engine β σ → Action β σ α) (w : World β σ) (a : α)
    (w' : World β σ) : Prop :=
  ∀ e, (x e).outcome w = some (.ok a, w')

/-- **Reading a property without an accessor.** -/
theorem bodiless_getProperty (key : Symbol) (hi : w.model.arena.get? id = some i)
    (hplain : w.Plain i.properties i.type) :
    ∃ w', Bodiless (·.getProperty id key) w (i.propertyValue key) w' ∧ w.Agrees w' := by
  -- The look-up of the accessor is remembered, and finds none.
  by_cases hdeclared : i.properties.contains key = true
  · have hagrees := World.Agrees.lookingUp w i.type (Accessor.getter key)
    have hnone := (hplain key (PropertyTable.mem_keys.mpr hdeclared)).1
    have hi' : (w.lookingUp i.type (Accessor.getter key)).model.arena.get? id = some i := by
      rw [hagrees.model, hi]
    refine ⟨_, fun e => ?_, hagrees⟩
    show (e.getProperty id key).outcome w = _
    unfold Engine.getProperty
    rw [outcome_bind_ok (outcome_find hi)]
    simp only [hdeclared, Bool.not_true, Bool.false_eq_true, if_false]
    rw [outcome_bind_ok (outcome_findMethod _ _), hnone]
    dsimp only
    rw [outcome_bind_ok (outcome_find hi'), Instance.propertyValue, if_pos hdeclared]
    rfl
  · refine ⟨w, fun e => ?_, .refl w⟩
    show (e.getProperty id key).outcome w = _
    unfold Engine.getProperty
    rw [outcome_bind_ok (outcome_find hi), Instance.propertyValue, if_neg hdeclared]
    simp only [hdeclared, Bool.not_false, if_true]
    rfl

theorem bodiless_getProperties (keys : List Symbol) (hi : w.model.arena.get? id = some i)
    (hplain : w.Plain i.properties i.type) :
    ∃ w', Bodiless (·.getProperties id keys) w
        (keys.map fun key => (key, i.propertyValue key)) w' ∧ w.Agrees w' := by
  induction keys generalizing w with
  | nil => exact ⟨w, fun _ => rfl, .refl w⟩
  | cons key keys ih =>
    obtain ⟨w₁, hread, hagrees₁⟩ := bodiless_getProperty key hi hplain
    obtain ⟨w₂, hrest, hagrees₂⟩ := ih (by rw [hagrees₁.model, hi]) (hagrees₁.plain hplain)
    refine ⟨w₂, fun e => ?_, hagrees₁.trans hagrees₂⟩
    show (e.getProperties id (key :: keys)).outcome w = _
    unfold Engine.getProperties
    rw [outcome_bind_ok (hread e), outcome_bind_ok (hrest e)]
    rfl

/-- **Capturing properties without accessors.** -/
theorem bodiless_capture (hi : w.model.arena.get? id = some i)
    (hplain : w.Plain i.properties i.type) :
    ∃ w', Bodiless (·.capture id) w i.captured w' ∧ w.Agrees w' := by
  obtain ⟨w', hread, hagrees⟩ := bodiless_getProperties i.properties.keys hi hplain
  refine ⟨w', fun e => ?_, hagrees⟩
  show (e.capture id).outcome w = _
  unfold Engine.capture
  rw [outcome_bind_ok (outcome_find hi)]
  dsimp only
  rw [outcome_bind_ok (hread e)]
  rfl

/-! ## Writing -/

/-- **Writing a property without an accessor.** -/
theorem bodiless_writeProperty {key : Symbol} (v : Value) (hi : w.model.arena.get? id = some i)
    (hset : w.finds i.type (Accessor.setter key) = none) :
    ∃ w', Bodiless (·.writeProperty id key v) w () w' ∧ w.Apart id w' ∧
      w'.model.arena.get? id = some { i with dynamic := i.dynamic.insert key v } ∧
      w.Keeps w' := by
  have htype : (typeOf id : Action β σ TypeId).outcome w = some (.ok i.type, w) := by
    rw [typeOf, outcome_bind_ok (outcome_find hi)]
    rfl
  have hrecord : (modifyChanges (·.record key) : Action β σ Unit).outcome w =
      some (.ok (), w.recording key) := rfl
  have hfinds : (w.recording key).finds i.type (Accessor.setter key) = none := hset
  have hagrees := World.Agrees.lookingUp (w.recording key) i.type (Accessor.setter key)
  -- The key is recorded, then the accessor is looked up, then the value is stored.
  generalize hv : (w.recording key).lookingUp i.type (Accessor.setter key) = v₁ at hagrees
  have hi' : v₁.model.arena.get? id = some i := by
    rw [hagrees.model]
    exact hi
  refine ⟨{ v₁ with model := v₁.model.modify id fun i =>
    { i with dynamic := i.dynamic.insert key v } }, fun e => ?_, ?_, ?_, ?_⟩
  · show (e.writeProperty id key v).outcome w = _
    unfold Engine.writeProperty
    rw [outcome_bind_ok htype, outcome_bind_ok hrecord, outcome_bind_ok (outcome_findMethod _ _),
      hfinds, hv]
    unfold Engine.storeProperty
    exact outcome_update hi' _
  · exact (World.Apart.changing id w _).trans (hagrees.apart.trans (.modify id v₁ _))
  · show (v₁.model.arena.modify id _).get? id = _
    rw [Arena.get?_modify_self, hi', Option.map_some]
  · exact (World.Keeps.changing w _).trans (hagrees.keeps.trans (.modify id v₁ _))

/-- **Writing captured values back.** -/
theorem bodiless_restoreValues (values : List (Symbol × Value))
    (hi : w.model.arena.get? id = some i) (hplain : w.Plain i.properties i.type)
    (hdeclared : ∀ entry ∈ values, entry.1 ∈ i.properties.keys) :
    ∃ w', Bodiless (·.restoreValues id values) w () w' ∧ w.Apart id w' ∧
      w'.model.arena.get? id = some { i with dynamic := writtenBack values i.dynamic } ∧
      w.Keeps w' := by
  induction values generalizing w i with
  | nil => exact ⟨w, fun _ => rfl, .refl id w, hi, .refl w⟩
  | cons entry rest ih =>
    obtain ⟨key, v⟩ := entry
    have hkey := hdeclared (key, v) List.mem_cons_self
    have hrest : ∀ entry ∈ rest, entry.1 ∈ i.properties.keys :=
      fun entry hmem => hdeclared entry (List.mem_cons_of_mem _ hmem)
    obtain ⟨w₁, hread, hagrees⟩ := bodiless_getProperty key hi hplain
    have hi₁ : w₁.model.arena.get? id = some i := by rw [hagrees.model, hi]
    have hplain₁ := hagrees.plain hplain
    have hvalue : i.propertyValue key = (i.dynamic.get? key).getD .void := by
      rw [Instance.propertyValue, if_pos (PropertyTable.mem_keys.mp hkey)]
      rfl
    rw [hvalue] at hread
    -- A value that is the same is not written again.
    by_cases hsame : ((i.dynamic.get? key).getD .void).same v = true
    · obtain ⟨w₂, hout, hapart, hthere, hkeeps⟩ := ih hi₁ hplain₁ hrest
      refine ⟨w₂, fun e => ?_, hagrees.apart.trans hapart, ?_, hagrees.keeps.trans hkeeps⟩
      · show (e.restoreValues id ((key, v) :: rest)).outcome w = _
        unfold Engine.restoreValues
        rw [outcome_bind_ok (hread e)]
        simp only [hsame, Bool.not_true, Bool.false_eq_true, if_false]
        exact hout e
      · rw [writtenBack, if_pos hsame]
        exact hthere
    · obtain ⟨w₂, hwrite, hapart₂, hi₂, hkeeps₂⟩ :=
        bodiless_writeProperty v hi₁ (hplain₁ key hkey).2
      obtain ⟨w₃, hout, hapart₃, hthere, hkeeps₃⟩ := ih hi₂ (hapart₂.plain hplain₁) hrest
      refine ⟨w₃, fun e => ?_, hagrees.apart.trans (hapart₂.trans hapart₃), ?_,
        hagrees.keeps.trans (hkeeps₂.trans hkeeps₃)⟩
      · show (e.restoreValues id ((key, v) :: rest)).outcome w = _
        unfold Engine.restoreValues
        rw [outcome_bind_ok (hread e)]
        simp only [hsame, Bool.not_false, if_true]
        rw [outcome_bind_ok (hwrite e)]
        exact hout e
      · rw [writtenBack, if_neg hsame]
        exact hthere

/-- **An instance whose properties are put back** as another one has them: what was declared since
is dropped, and the values are written back. -/
def Instance.putBack (i before : Instance β) : Instance β :=
  { i with
    dynamic := writtenBack before.captured.values
      ((i.properties.keys.filter (!before.properties.contains ·)).foldl Association.erase i.dynamic)
    properties := before.properties }

/-- **What is stored after properties were put back**: declared ones are restored, those added since
are dropped, and nothing else is touched. -/
theorem Instance.get?_putBack (i before : Instance β) (key : Symbol) :
    (i.putBack before).dynamic.get? key =
      if before.properties.contains key = true then
        slotRestored (i.dynamic.get? key) (before.stored key)
      else if i.properties.contains key = true then none else i.dynamic.get? key := by
  have hadded : key ∈ i.properties.keys.filter (!before.properties.contains ·) ↔
      i.properties.contains key = true ∧ ¬before.properties.contains key = true := by
    rw [List.mem_filter, PropertyTable.mem_keys, Bool.not_eq_true', Bool.not_eq_true]
  show (writtenBack (before.properties.keys.map fun key => (key, before.propertyValue key))
    _).get? key = _
  rw [get?_writtenBack]
  simp only [PropertyTable.mem_keys]
  by_cases hbefore : before.properties.contains key = true
  · rw [if_pos hbefore, if_pos hbefore, Instance.propertyValue, if_pos hbefore,
      Association.get?_foldl_erase _ _ fun h => (hadded.mp h).2 hbefore]
  · rw [if_neg hbefore, if_neg hbefore]
    by_cases hnow : i.properties.contains key = true
    · rw [if_pos hnow]
      exact Association.get?_foldl_erase_of_mem (Or.inl (hadded.mpr ⟨hnow, hbefore⟩))
    · rw [if_neg hnow, Association.get?_foldl_erase _ _ fun h => hnow (hadded.mp h).1]

/-- Every declared property is restored. -/
theorem Instance.stored_putBack {before : Instance β} {key : Symbol}
    (hkey : key ∈ before.properties.keys) :
    (i.putBack before).stored key = (i.stored key).restored (before.propertyValue key) := by
  have hdeclared := PropertyTable.mem_keys.mp hkey
  rw [Instance.stored, Instance.get?_putBack, if_pos hdeclared, getD_slotRestored,
    Instance.propertyValue, if_pos hdeclared]
  rfl

/-- **Putting properties back** as they were captured, where they have no accessors.  Nothing but
the properties of the instance and the record of changes differs afterwards. -/
theorem bodiless_putBack {before : Instance β} (hi : w.model.arena.get? id = some i)
    (hplain : w.Plain before.properties i.type) :
    ∃ w', Bodiless (·.restore id before.captured) w () w' ∧ w.Apart id w' ∧
      w'.model.arena.get? id = some (i.putBack before) ∧ w.Keeps w' := by
  let tabled := { i with
    dynamic := (i.properties.keys.filter (!before.properties.contains ·)).foldl
      Association.erase i.dynamic
    properties := before.properties }
  let w₁ : World β σ := { w with model := w.model.modify id fun i => { i with
    dynamic := (i.properties.keys.filter (!before.properties.contains ·)).foldl
      Association.erase i.dynamic
    properties := before.properties } }
  have hi₁ : w₁.model.arena.get? id = some tabled := by
    show (w.model.arena.modify id _).get? id = _
    rw [Arena.get?_modify_self, hi, Option.map_some]
  have hapart₁ : w.Apart id w₁ := .modify id w _
  have hdeclared : ∀ entry ∈ before.captured.values, entry.1 ∈ tabled.properties.keys := by
    intro entry hmem
    obtain ⟨key, hkey, rfl⟩ := List.mem_map.mp hmem
    exact hkey
  obtain ⟨w₂, hout, hapart₂, hi₂, hkeeps₂⟩ :=
    bodiless_restoreValues before.captured.values hi₁ (hapart₁.plain hplain) hdeclared
  have hkeeps₁ : w.Keeps w₁ := .modify id w _
  refine ⟨w₂, fun e => ?_, hapart₁.trans hapart₂, hi₂, hkeeps₁.trans hkeeps₂⟩
  show (e.restore id before.captured).outcome w = _
  unfold Engine.restore
  rw [outcome_bind_ok (outcome_update hi _)]
  exact hout e

end ProductModel
