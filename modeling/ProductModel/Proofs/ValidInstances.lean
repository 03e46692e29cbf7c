import ProductModel.Proofs.AdmittedAlike
import ProductModel.Proofs.StoredValues

/-!
# Instances with valid properties

An instance is valid if its type has no accessors for what it declares, no choice is computed, every
declared property has no value or one that its definition admits, and nothing is stored under a key
that is not declared.

The changes that an instance can go through keep it valid: a new key is declared, a property is
removed or gets another state, an admitted value is stored, and all properties are put back as they
were.  For the last, what matters is that nothing is stored under other keys than those declared at
that moment, which are dropped unless they were declared before, and that a value that stays is the
same as the one from before.
-/

namespace ProductModel

variable {β : Type}

/-! ## Tables -/

namespace PropertyTable

variable {t : PropertyTable} {key : Symbol}

theorem contains_eq_isSome (t : PropertyTable) (key : Symbol) :
    t.contains key = (t.get? key).isSome := by
  unfold contains get? find?
  rw [Option.isSome_map, List.isSome_find?]

theorem get?_eq_none_iff : t.get? key = none ↔ t.contains key = false := by
  rw [contains_eq_isSome]
  cases t.get? key <;> simp

/-- A new key is declared behind the others. -/
theorem get?_setup_of_new {d : PropertyDef} (h : t.contains d.key = false) :
    (t.setup d).2.get? key = if key = d.key then some d else t.get? key := by
  have hnew : t.find? d.key = none := by
    rw [← get?_eq_none_iff, get?, Option.map_eq_none_iff] at h
    exact h
  unfold setup
  rw [hnew]
  show ((t.entries ++ [_]).find? _).map _ = _
  rw [List.find?_append]
  by_cases hkey : key = d.key
  · subst hkey
    rw [if_pos rfl, show t.entries.find? (·.key == d.key) = none from hnew]
    simp [PropertyEntry.key]
  · have hne : (d.key == key) = false := by simpa using fun h => hkey h.symm
    rw [if_neg hkey]
    simp [get?, find?, PropertyEntry.key, hne]

theorem get?_remove (t : PropertyTable) (key removed : Symbol) :
    (t.remove removed).2.get? key = if key = removed then none else t.get? key := by
  unfold remove get? find?
  rw [List.find?_filter]
  by_cases hkey : key = removed
  · subst hkey
    rw [if_pos rfl, Option.map_eq_none_iff, List.find?_eq_none]
    simp
  · rw [if_neg hkey]
    congr 2
    funext e
    by_cases he : e.key = key
    · simp [he, hkey]
    · simp [he]

/-- The entry of one key is changed, and keeps that key. -/
theorem find?_modify (t : PropertyTable) (changed : Symbol) {f : PropertyEntry → PropertyEntry}
    (hkey : ∀ e, e.key = changed → (f e).key = changed) (key : Symbol) :
    (t.modify changed f).find? key =
      (t.find? key).map fun e => if key = changed then f e else e := by
  unfold modify find?
  induction t.entries with
  | nil => rfl
  | cons e es ih =>
    rw [List.map_cons, List.find?_cons, List.find?_cons]
    have hsame : (if e.key == changed then f e else e).key = e.key := by
      split
      · rename_i hchanged
        rw [beq_iff_eq] at hchanged
        exact (hkey e hchanged).trans hchanged.symm
      · rfl
    rw [hsame]
    by_cases he : e.key = key
    · subst he
      simp
    · rw [show (e.key == key) = false by simpa using he]
      exact ih

theorem get?_setState (t : PropertyTable) (key changed : Symbol) (state : PropertyState) :
    (t.setState changed state).get? key =
      (t.get? key).map fun d => if key = changed then { d with state } else d := by
  have hfind := t.find?_modify changed
    (f := fun e => { e with definition := { e.definition with state } }) (fun _ hkey => hkey) key
  unfold setState get?
  rw [hfind, Option.map_map, Option.map_map]
  refine congrArg (Option.map · _) (funext fun e => ?_)
  dsimp only [Function.comp]
  split <;> rfl

end PropertyTable

/-! ## Instances -/

/-- **What the rest of an instance does not bear on**: its type, its declared properties and its
further attributes. -/
def Instance.holdings (i : Instance β) : TypeId × PropertyTable × Association Symbol Value :=
  (i.type, i.properties, i.dynamic)

/-- A type has no accessors for a key. -/
def Registry.Accessorless (types : Registry β) (type : TypeId) (key : Symbol) : Prop :=
  types.findMethod type (Accessor.getter key) = none ∧
    types.findMethod type (Accessor.setter key) = none

/-- **A value that a definition admits**, or none. -/
def PropertyDef.Holds (d : PropertyDef) (v : Value) : Prop := v = .void ∨ d.validate v = .ok ()

/-- **An instance with valid properties.** -/
structure Instance.Valid (types : Registry β) (i : Instance β) : Prop where
  plain : ∀ {key d}, i.properties.get? key = some d → types.Accessorless i.type key
  listed : ∀ {key d}, i.properties.get? key = some d → d.kind.choiceMethod? = none
  holds : ∀ {key d}, i.properties.get? key = some d → d.Holds (i.stored key)
  unused : ∀ {key}, i.properties.get? key = none → i.dynamic.get? key = none

/-- Whether a value is admitted does not depend on how the property is offered. -/
theorem PropertyDef.Holds.withState {d : PropertyDef} {v : Value} (h : d.Holds v)
    (state : PropertyState) : PropertyDef.Holds { d with state } v := h

/-- **What restoring leaves is admitted** if the value from before was. -/
theorem PropertyDef.Holds.restored {d : PropertyDef} {before : Value} (h : d.Holds before)
    (now : Value) : d.Holds (now.restored before) := by
  unfold Value.restored
  split
  · rename_i hsame
    rcases h with rfl | hvalid
    · exact Or.inl (Value.eq_of_same hsame rfl)
    · exact Or.inr (validate_of_same hsame hvalid)
  · exact h

namespace Instance.Valid

variable {types : Registry β} {i j : Instance β}

theorem of_holdings (h : i.Valid types) (heq : j.holdings = i.holdings) : j.Valid types := by
  obtain ⟨htype, hrest⟩ := Prod.mk.inj heq
  obtain ⟨hproperties, hdynamic⟩ := Prod.mk.inj hrest
  exact {
    plain := by
      rw [hproperties, htype]
      exact h.plain
    listed := by
      rw [hproperties]
      exact h.listed
    holds := by
      intro key d hd
      rw [hproperties] at hd
      unfold Instance.stored
      rw [hdynamic]
      exact h.holds hd
    unused := by
      rw [hproperties, hdynamic]
      exact h.unused }

/-- An instance that declares nothing and has no further attributes. -/
theorem of_blank (hproperties : i.properties = {}) (hdynamic : i.dynamic = {}) :
    i.Valid types := by
  have hnone : ∀ {key d}, i.properties.get? key ≠ some d := by
    rw [hproperties]
    exact nofun
  exact {
    plain := fun hd => absurd hd hnone
    listed := fun hd => absurd hd hnone
    holds := fun hd => absurd hd hnone
    unused := fun _ => by
      rw [hdynamic]
      rfl }

/-- **A new key is declared.**  Nothing was stored under it. -/
theorem setup (h : i.Valid types) {d : PropertyDef} (hnew : i.properties.contains d.key = false)
    (hlisted : d.kind.choiceMethod? = none) (hplain : types.Accessorless i.type d.key) :
    Instance.Valid types { i with properties := (i.properties.setup d).2 } := by
  have hget : ∀ key, (i.properties.setup d).2.get? key =
      if key = d.key then some d else i.properties.get? key :=
    fun _ => PropertyTable.get?_setup_of_new hnew
  have hback : ∀ {key d'}, (i.properties.setup d).2.get? key = some d' →
      key = d.key ∧ d' = d ∨ i.properties.get? key = some d' := by
    intro key d' hd
    rw [hget] at hd
    split at hd
    · rename_i hkey
      exact .inl ⟨hkey, (Option.some.inj hd).symm⟩
    · exact .inr hd
  exact {
    plain := by
      intro key d' hd
      rcases hback hd with ⟨rfl, -⟩ | hd
      · exact hplain
      · exact h.plain hd
    listed := by
      intro key d' hd
      rcases hback hd with ⟨-, rfl⟩ | hd
      · exact hlisted
      · exact h.listed hd
    holds := by
      intro key d' hd
      rcases hback hd with ⟨rfl, -⟩ | hd
      · refine Or.inl ?_
        show (i.dynamic.get? d.key).getD .void = .void
        rw [h.unused (PropertyTable.get?_eq_none_iff.mpr hnew)]
        rfl
      · exact h.holds hd
    unused := by
      intro key hnone
      change (i.properties.setup d).2.get? key = none at hnone
      rw [hget] at hnone
      split at hnone
      · cases hnone
      · exact h.unused hnone }

theorem remove (h : i.Valid types) (removed : Symbol) :
    Instance.Valid types { i with
      properties := (i.properties.remove removed).2, dynamic := i.dynamic.erase removed } := by
  have hget := fun key => PropertyTable.get?_remove i.properties key removed
  have hback : ∀ {key d}, (i.properties.remove removed).2.get? key = some d →
      key ≠ removed ∧ i.properties.get? key = some d := by
    intro key d hd
    rw [hget] at hd
    split at hd
    · cases hd
    · rename_i hkey
      exact ⟨hkey, hd⟩
  exact {
    plain := fun hd => h.plain (hback hd).2
    listed := fun hd => h.listed (hback hd).2
    holds := by
      intro key d hd
      obtain ⟨hkey, hd⟩ := hback hd
      show PropertyDef.Holds d (((i.dynamic.erase removed).get? key).getD .void)
      rw [Association.get?_erase_of_ne _ hkey]
      exact h.holds hd
    unused := by
      intro key hnone
      change (i.properties.remove removed).2.get? key = none at hnone
      rw [hget] at hnone
      split at hnone
      · rename_i hkey
        rw [hkey]
        exact Association.get?_erase_self _ _
      · rename_i hkey
        exact (Association.get?_erase_of_ne _ hkey).trans (h.unused hnone) }

theorem setState (h : i.Valid types) (changed : Symbol) (state : PropertyState) :
    Instance.Valid types { i with properties := i.properties.setState changed state } := by
  have hdefined : ∀ {key d}, (i.properties.setState changed state).get? key = some d →
      ∃ d₀, i.properties.get? key = some d₀ ∧ d.kind = d₀.kind ∧
        ∀ v, d₀.Holds v → d.Holds v := by
    intro key d hd
    rw [PropertyTable.get?_setState, Option.map_eq_some_iff] at hd
    obtain ⟨d₀, hd₀, rfl⟩ := hd
    refine ⟨d₀, hd₀, ?_, fun v hv => ?_⟩
    · split <;> rfl
    · split
      · exact hv.withState state
      · exact hv
  exact {
    plain := fun hd => by
      obtain ⟨d₀, hd₀, -⟩ := hdefined hd
      exact h.plain hd₀
    listed := fun hd => by
      obtain ⟨d₀, hd₀, hkind, -⟩ := hdefined hd
      rw [hkind]
      exact h.listed hd₀
    holds := fun hd => by
      obtain ⟨d₀, hd₀, -, hholds⟩ := hdefined hd
      exact hholds _ (h.holds hd₀)
    unused := fun hnone => by
      rw [PropertyTable.get?_setState, Option.map_eq_none_iff] at hnone
      exact h.unused hnone }

/-- **A value is stored** that the definition admits. -/
theorem store (h : i.Valid types) {key : Symbol} {d : PropertyDef} {v : Value}
    (hd : i.properties.get? key = some d) (hv : d.validate v = .ok ()) :
    Instance.Valid types { i with dynamic := i.dynamic.insert key v } where
  plain := h.plain
  listed := h.listed
  holds {k d'} hd' := by
    show PropertyDef.Holds d' (((i.dynamic.insert key v).get? k).getD .void)
    by_cases hk : k = key
    · subst hk
      rw [Association.get?_insert_self]
      rw [hd] at hd'
      cases hd'
      exact Or.inr hv
    · rw [Association.get?_insert_of_ne _ hk]
      exact h.holds hd'
  unused {k} hnone := by
    have hk : k ≠ key := by
      rintro rfl
      rw [hd] at hnone
      cases hnone
    exact (Association.get?_insert_of_ne _ hk v).trans (h.unused hnone)

/-- **Properties are put back.**  It does not matter what was declared, removed and stored since,
because all of that was under the keys that were declared then. -/
theorem putBack {before : Instance β} (h : i.Valid types) (hbefore : before.Valid types)
    (htype : i.type = before.type) : (i.putBack before).Valid types where
  plain := by
    show ∀ {key d}, before.properties.get? key = some d → types.Accessorless i.type key
    rw [htype]
    exact hbefore.plain
  listed := hbefore.listed
  holds {key d} hd := by
    change before.properties.get? key = some d at hd
    have hdeclared : before.properties.contains key = true := by
      rw [PropertyTable.contains_eq_isSome, hd]
      rfl
    rw [Instance.stored_putBack (PropertyTable.mem_keys.mpr hdeclared), Instance.propertyValue,
      if_pos hdeclared]
    exact (hbefore.holds hd).restored _
  unused {key} hnone := by
    change before.properties.get? key = none at hnone
    have hundeclared := PropertyTable.get?_eq_none_iff.mp hnone
    -- What is stored is declared; what is declared was so before, or has been added.
    rw [Instance.get?_putBack, hundeclared, if_neg Bool.false_ne_true]
    split
    · rfl
    · rename_i hnow
      exact h.unused (PropertyTable.get?_eq_none_iff.mpr (Bool.eq_false_iff.mpr hnow))

end Instance.Valid

/-- **A model with valid properties.** -/
def Model.Valid (m : Model β) : Prop := ∀ {id i}, m.arena.get? id = some i → i.Valid m.types

end ProductModel
