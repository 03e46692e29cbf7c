import ProductModel.Proofs.Run.Outcomes
import ProductModel.Proofs.ValidInstances
import ProductModel.Showroom

/-!
# The types of the showroom at work

What the registry answers when the types of the showroom, and no others, were registered: which type
a name denotes, which method an instance answers to, and which rules stand in a chain.  None of the
properties of a cabinet or a shelf has an accessor, so their values are stored with the instances.
-/

namespace ProductModel.Showroom

open ProductModel.Action

variable {σ : Type} {w : World Routine σ}

/-- **The types of the showroom.** -/
def types : Registry Routine :=
  Registry.after [.register (shelfType id), .register (cabinetType id),
    .register (furnitureType id), .register environmentType]

/-- The handle of the type of the root. -/
def environmentId : TypeId := ⟨0⟩

/-- The handle of the type of all furniture. -/
def furnitureId : TypeId := ⟨1⟩

/-- The handle of the type of cabinets. -/
def cabinetId : TypeId := ⟨2⟩

/-- The handle of the type of shelves. -/
def shelfId : TypeId := ⟨3⟩

/-- A name denotes one of the four types. -/
theorem types_lookup {name : String} {type : TypeId} (h : types.lookup name = some type) :
    type = environmentId ∨ type = furnitureId ∨ type = cabinetId ∨ type = shelfId := by
  have hlt : type.index < 4 := (Registry.grounded_after _).lookup_lt h
  obtain ⟨index⟩ := type
  simp only [environmentId, furnitureId, cabinetId, shelfId, TypeId.mk.injEq]
  dsimp only at hlt
  omega

/-! ## Registration -/

/-- **Registering the types of the showroom** in a model without types gives these types. -/
theorem outcome_install {allowance : Nat} (hempty : w.model.types = {}) :
    ((install id).run (perform language (allowance + 1))).outcome w =
      some (.ok (), { w with model := { w.model with types := types } }) := by
  have hregister : ∀ {d : TypeDef Routine} {v : World Routine σ} {type : TypeId}
      {r : Registry Routine}, v.model.types.register d = .ok (type, r) →
      (perform language (allowance + 1) (.register d)).outcome v =
        some (.ok type, { v with model := { v.model with types := r } }) := by
    intro d v type r h
    show (ofExcept ((v.model.types.register d).mapError .type) >>= _).outcome v = _
    rw [h]
    rfl
  have henvironment : ({} : Registry Routine).register environmentType =
      .ok (environmentId, .after [.register environmentType]) := rfl
  have hfurniture : (Registry.after [.register environmentType]).register (furnitureType id) =
      .ok (furnitureId, .after [.register (furnitureType id), .register environmentType]) := rfl
  have hcabinet : (Registry.after [.register (furnitureType id),
      .register environmentType]).register (cabinetType id) =
      .ok (cabinetId, .after [.register (cabinetType id), .register (furnitureType id),
        .register environmentType]) := rfl
  have hshelf : (Registry.after [.register (cabinetType id), .register (furnitureType id),
      .register environmentType]).register (shelfType id) = .ok (shelfId, types) := rfl
  unfold install
  rw [Program.outcome_run_call_bind_ok (hregister (hempty ▸ henvironment)),
    Program.outcome_run_call_bind_ok (hregister hfurniture),
    Program.outcome_run_call_bind_ok (hregister hcabinet),
    Program.outcome_run_call_bind_ok (hregister hshelf)]
  rfl

/-! ## Rules -/

/-- What a cabinet asks before an element is made. -/
theorem ruleChain_createElement :
    types.ruleChain cabinetId Reason.createElement.symbol none =
      [⟨cabinetId, { reason := Reason.createElement.symbol, kind := .anterior
                     body := .acceptInsertable }⟩] := rfl

/-- A cabinet asks nothing about a new element. -/
theorem ruleChain_newElement :
    types.ruleChain cabinetId Reason.newElement.symbol none = [] := rfl

/-- What a cabinet asks before an element is removed. -/
theorem ruleChain_removeElement :
    types.ruleChain cabinetId Reason.removeElement.symbol none =
      [⟨furnitureId, { reason := Reason.removeElement.symbol, kind := .anterior
                       body := .acceptRemoval }⟩,
        ⟨cabinetId, { reason := Reason.removeElement.symbol, kind := .anterior
                      body := .keepOneShelf }⟩] := rfl

/-- **Only shelves are insertable.** -/
theorem hasCategory_insertable {name : String} {type : TypeId}
    (h : types.lookup name = some type) :
    types.lookup (types.name type) = some type ∧
      types.hasCategory type insertable = decide (type = shelfId) := by
  rcases types_lookup h with rfl | rfl | rfl | rfl <;> exact ⟨rfl, rfl⟩

/-! ## Properties -/

/-- **The properties of a cabinet.** -/
def cabinetTable : PropertyTable :=
  ((((PropertyTable.empty.setup cabinetWidth).2).setup cabinetColor).2.setup cabinetDoors).2

/-- **The properties of a shelf.** -/
def shelfTable : PropertyTable := ((PropertyTable.empty.setup shelfHeight).2.setup shelfWidth).2

theorem cabinetTable_contains_width : cabinetTable.contains width = true := rfl

theorem cabinetTable_contains_doors : cabinetTable.contains doors = true := rfl

theorem shelfTable_contains_width : shelfTable.contains width = true := rfl

theorem get?_cabinetTable (key : Symbol) :
    cabinetTable.get? key =
      if key = doors then some cabinetDoors else if key = color then some cabinetColor
      else if key = width then some cabinetWidth else none := by
  unfold cabinetTable
  rw [PropertyTable.get?_setup_of_new rfl, PropertyTable.get?_setup_of_new rfl,
    PropertyTable.get?_setup_of_new rfl]
  rfl

/-- A property of a cabinet is its width, its color or whether it has doors. -/
theorem mem_cabinetTable {key : Symbol} (h : key ∈ cabinetTable.keys) :
    key = width ∨ key = color ∨ key = doors := by
  rw [PropertyTable.mem_keys, PropertyTable.contains_eq_isSome, get?_cabinetTable] at h
  by_cases hdoors : key = doors
  · exact Or.inr (Or.inr hdoors)
  by_cases hcolor : key = color
  · exact Or.inr (Or.inl hcolor)
  by_cases hwidth : key = width
  · exact Or.inl hwidth
  rw [if_neg hdoors, if_neg hcolor, if_neg hwidth] at h
  cases h

theorem mem_shelfTable {key : Symbol} (h : key ∈ shelfTable.keys) :
    key = height ∨ key = width := by
  have htable : shelfTable.get? key =
      if key = width then some shelfWidth else if key = height then some shelfHeight else none := by
    unfold shelfTable
    rw [PropertyTable.get?_setup_of_new rfl, PropertyTable.get?_setup_of_new rfl]
    rfl
  rw [PropertyTable.mem_keys, PropertyTable.contains_eq_isSome, htable] at h
  by_cases hwidth : key = width
  · exact Or.inr hwidth
  by_cases hheight : key = height
  · exact Or.inl hheight
  rw [if_neg hwidth, if_neg hheight] at h
  cases h

/-- **No property of a cabinet has an accessor.** -/
theorem accessorless_cabinet (key : Symbol) (h : cabinetTable.contains key = true) :
    types.Accessorless cabinetId key := by
  rcases mem_cabinetTable (PropertyTable.mem_keys.mpr h) with rfl | rfl | rfl <;>
    exact ⟨rfl, rfl⟩

/-- **No property of a shelf has an accessor.** -/
theorem accessorless_shelf (key : Symbol) (h : shelfTable.contains key = true) :
    types.Accessorless shelfId key := by
  rcases mem_shelfTable (PropertyTable.mem_keys.mpr h) with rfl | rfl <;> exact ⟨rfl, rfl⟩

/-- A property of a cabinet can be set, and its values are not computed. -/
theorem cabinetTable_enabled {key : Symbol} {d : PropertyDef}
    (h : cabinetTable.get? key = some d) :
    d.state = .enabled ∧ d.kind.choiceMethod? = none ∧ (key = width → d = cabinetWidth) := by
  rw [get?_cabinetTable] at h
  by_cases hdoors : key = doors
  · rw [if_pos hdoors] at h
    cases h
    subst hdoors
    exact ⟨rfl, rfl, fun hkey => absurd hkey (by decide)⟩
  · by_cases hcolor : key = color
    · rw [if_neg hdoors, if_pos hcolor] at h
      cases h
      subst hcolor
      exact ⟨rfl, rfl, fun hkey => absurd hkey (by decide)⟩
    · by_cases hwidth : key = width
      · rw [if_neg hdoors, if_neg hcolor, if_pos hwidth] at h
        cases h
        exact ⟨rfl, rfl, fun _ => rfl⟩
      · rw [if_neg hdoors, if_neg hcolor, if_neg hwidth] at h
        cases h

/-- A width is a number. -/
theorem isVoid_of_validate {v : Value} (h : cabinetWidth.validate v = .ok ()) :
    v.isVoid = false := by
  cases v with
  | void => cases h
  | _ => rfl

/-! ## Methods -/

section Truthful

variable (htypes : w.model.types = types) (htruthful : w.Truthful)
include htypes htruthful

theorem finds_eq (type : TypeId) (name : Symbol) :
    w.finds type name = types.findMethod type name := by
  rw [htruthful.finds_eq, htypes]

theorem plain_cabinet : w.Plain cabinetTable cabinetId := by
  intro key hkey
  rw [finds_eq htypes htruthful, finds_eq htypes htruthful]
  exact accessorless_cabinet key (PropertyTable.mem_keys.mp hkey)

theorem plain_shelf : w.Plain shelfTable shelfId := by
  intro key hkey
  rw [finds_eq htypes htruthful, finds_eq htypes htruthful]
  exact accessorless_shelf key (PropertyTable.mem_keys.mp hkey)

end Truthful

end ProductModel.Showroom
