import ProductModel.Proofs.RefusedChange

/-!
# Properties that can be read

The value of a property is what its accessor answers, if there is one.  So nothing can be said of
values unless the accessors work: they have an answer, and asking for it changes no value.

`Engine.Readings` is a way to read all properties of an instance.  It comes with the worlds in which
the accessors work and with the value that is read in each of them, and its laws are fields.  Where
there are no accessors, what is stored is read (`Engine.plainReadings`).

Capturing properties and comparing them with captured ones need no more than that
(`Readings.exists_capture`, `Readings.exists_compare`).

## Design

Worlds in which properties can be read are a parameter, because no accessor works in every world:
the type can be redefined, and remembered lookups can be those of other types.
-/

namespace ProductModel

open ProductModel.Action

variable {β σ : Type} {w w' w'' : World β σ} {id : InstanceId} {key : Symbol} {v : Value}
  {i : Instance β}

/-- What belongs to the properties of an instance beside their values: the table, and the mark of a
changed instance. -/
def World.frame (w : World β σ) (id : InstanceId) : Option (PropertyTable × Bool) :=
  (w.model.arena.get? id).map fun i => (i.properties, i.changed)

theorem World.frame_of_get? (hi : w.model.arena.get? id = some i) :
    w.frame id = some (i.properties, i.changed) := by
  rw [frame, hi, Option.map_some]

/-- The instance of a frame. -/
theorem World.exists_of_frame {table : PropertyTable} {mark : Bool}
    (h : w.frame id = some (table, mark)) :
    ∃ i, w.model.arena.get? id = some i ∧ i.properties = table ∧ i.changed = mark := by
  obtain ⟨i, hi, hframe⟩ := Option.map_eq_some_iff.mp h
  exact ⟨i, hi, congrArg Prod.fst hframe, congrArg Prod.snd hframe⟩

/-- The world in which an instance is marked as changed. -/
def World.marking (w : World β σ) (id : InstanceId) : World β σ :=
  { w with model := w.model.modify id fun i => { i with changed := true } }

/-- The world in which the record of changes is another. -/
def World.changing (w : World β σ) (changes : ChangeHistory) : World β σ :=
  { w with model := { w.model with changes } }

/-- **A way to read the properties of an instance.** -/
structure Engine.Readings (e : Engine β σ) (id : InstanceId) where
  /-- the worlds in which the properties can be read -/
  works : World β σ → Prop
  /-- the value that is read -/
  reads : World β σ → Symbol → Value
  there : ∀ {w}, works w → ∃ i, w.model.arena.get? id = some i
  /-- reading gives the value, and changes none -/
  read : ∀ {w}, works w → ∀ key, ∃ w',
    (e.getProperty id key).outcome w = some (.ok (reads w key), w') ∧
    works w' ∧ reads w' = reads w ∧ w'.frame id = w.frame id
  /-- the record of changes is no matter -/
  changing : ∀ {w}, works w → ∀ changes,
    works (w.changing changes) ∧ reads (w.changing changes) = reads w
  /-- nor is the mark of a changed instance -/
  marking : ∀ {w}, works w → works (w.marking id) ∧ reads (w.marking id) = reads w

namespace Engine.Readings

variable {e : Engine β σ} (R : e.Readings id)

/-- **The same is read**, and the instance has the same table and the same mark. -/
structure Same (w w' : World β σ) : Prop where
  works : R.works w'
  reads : R.reads w' = R.reads w
  frame : w'.frame id = w.frame id

variable {R}

theorem Same.refl (hw : R.works w) : R.Same w w := ⟨hw, rfl, rfl⟩

theorem Same.trans (h : R.Same w w') (h' : R.Same w' w'') : R.Same w w'' :=
  ⟨h'.works, h'.reads.trans h.reads, h'.frame.trans h.frame⟩

theorem same_changing (hw : R.works w) (changes : ChangeHistory) :
    R.Same w (w.changing changes) := by
  obtain ⟨hworks, hreads⟩ := R.changing hw changes
  exact ⟨hworks, hreads, rfl⟩

/-- **Reading a property.** -/
theorem exists_read (hw : R.works w) (key : Symbol) :
    ∃ w', (e.getProperty id key).outcome w = some (.ok (R.reads w key), w') ∧ R.Same w w' := by
  obtain ⟨w', hread, hworks, hreads, hframe⟩ := R.read hw key
  exact ⟨w', hread, hworks, hreads, hframe⟩

/-- What is not declared has no value. -/
theorem reads_of_undeclared (hw : R.works w) (hi : w.model.arena.get? id = some i)
    (hundeclared : i.properties.contains key = false) : R.reads w key = .void := by
  have hvoid : (e.getProperty id key).outcome w = some (.ok .void, w) := by
    unfold Engine.getProperty
    rw [outcome_bind_ok (outcome_find hi), hundeclared]
    rfl
  obtain ⟨w', hread, -⟩ := R.exists_read hw key
  exact Except.ok.inj (congrArg Prod.fst (Option.some.inj (hread.symm.trans hvoid)))

theorem exists_readAll (hw : R.works w) (keys : List Symbol) :
    ∃ w', (e.getProperties id keys).outcome w =
      some (.ok (keys.map fun key => (key, R.reads w key)), w') ∧ R.Same w w' := by
  induction keys generalizing w with
  | nil => exact ⟨w, rfl, .refl hw⟩
  | cons key keys ih =>
    obtain ⟨w₁, hread, hsame₁⟩ := R.exists_read hw key
    obtain ⟨w₂, hrest, hsame₂⟩ := ih hsame₁.works
    refine ⟨w₂, ?_, hsame₁.trans hsame₂⟩
    unfold Engine.getProperties
    rw [outcome_bind_ok hread, outcome_bind_ok hrest, hsame₁.reads]
    rfl

variable (R) in
/-- What is captured of an instance. -/
def captured (w : World β σ) (i : Instance β) : PropertyCapture :=
  ⟨i.properties, i.properties.keys.map fun key => (key, R.reads w key)⟩

/-- **Capturing the properties.** -/
theorem exists_capture (hw : R.works w) (hi : w.model.arena.get? id = some i) :
    ∃ w', (e.capture id).outcome w = some (.ok (R.captured w i), w') ∧ R.Same w w' := by
  obtain ⟨w', hread, hsame⟩ := R.exists_readAll hw i.properties.keys
  refine ⟨w', ?_, hsame⟩
  unfold Engine.capture
  rw [outcome_bind_ok (outcome_find hi)]
  dsimp only
  rw [outcome_bind_ok hread]
  rfl

/-- **Comparing the properties** with captured ones.  An instance whose values differ is marked as
changed, and nothing else is done. -/
theorem exists_compare (hw : R.works w) (hi : w.model.arena.get? id = some i)
    (before : PropertyCapture) :
    ∃ w' differs, differs = !PropertyCapture.sameValues (R.captured w i).values before.values ∧
      (e.compare id before).outcome w =
        some (.ok (differs || !(i.properties == before.table)), w') ∧
      R.works w' ∧ R.reads w' = R.reads w ∧
      w'.frame id = some (i.properties, i.changed || differs) := by
  obtain ⟨w₁, hcapture, hsame⟩ := R.exists_capture hw hi
  obtain ⟨j, hj, htable, hmark⟩ :=
    World.exists_of_frame (hsame.frame.trans (World.frame_of_get? hi))
  unfold Engine.compare
  rw [outcome_bind_ok hcapture]
  -- The mark is set if a value differs, and never taken off here.
  cases hdiffers : !PropertyCapture.sameValues (R.captured w i).values before.values with
  | true =>
    obtain ⟨hworks, hreads⟩ := R.marking hsame.works
    have hmarked : (w₁.marking id).model.arena.get? id = some { j with changed := true } := by
      show (w₁.model.arena.modify id _).get? id = _
      rw [Arena.get?_modify_self, hj, Option.map_some]
    refine ⟨w₁.marking id, true, rfl, ?_, hworks, hreads.trans hsame.reads, ?_⟩
    · rw [if_pos rfl, outcome_bind_ok (outcome_update hj _)]
      rfl
    · rw [World.frame_of_get? hmarked, Bool.or_true, htable]
  | false =>
    refine ⟨w₁, false, rfl, rfl, hsame.works, hsame.reads, ?_⟩
    rw [World.frame_of_get? hj, Bool.or_false, htable, hmark]

end Engine.Readings

/-! ## Without accessors -/

/-- **Where there are no accessors**, what is stored is read. -/
def Engine.plainReadings (e : Engine β σ) (id : InstanceId) : e.Readings id where
  works w := ∃ i, w.model.arena.get? id = some i ∧ w.Plain i.properties i.type
  reads w key := ((w.model.arena.get? id).map (·.propertyValue key)).getD .void
  there := fun ⟨i, hi, _⟩ => ⟨i, hi⟩
  read := by
    rintro w ⟨i, hi, hplain⟩ key
    obtain ⟨w', hread, hagrees⟩ := bodiless_getProperty key hi hplain
    refine ⟨w', ?_, ⟨i, by rw [hagrees.model, hi], hagrees.plain hplain⟩, ?_, ?_⟩
    · rw [hi]
      exact hread e
    · rw [hagrees.model]
    · rw [World.frame, hagrees.model, World.frame]
  changing := fun hw _ => ⟨hw, rfl⟩
  marking := by
    rintro w ⟨i, hi, hplain⟩
    have hmarked : (w.marking id).model.arena.get? id = some { i with changed := true } := by
      show (w.model.arena.modify id _).get? id = _
      rw [Arena.get?_modify_self, hi, Option.map_some]
    refine ⟨⟨_, hmarked, hplain⟩, ?_⟩
    funext key
    rw [hmarked, hi]
    rfl

end ProductModel
