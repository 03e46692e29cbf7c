import ProductModel.Proofs.Showroom.Routines

/-!
# How the furniture is initialized

The initializers of the showroom change the new instance and nothing else.  The initializer of all
furniture keeps the article number in a declared field, so no further attribute comes of it.  A new
cabinet has the properties of a cabinet and starts narrow and without doors; a new shelf has the
properties of a shelf and the width that its cabinet has at that moment.
-/

namespace ProductModel.Showroom

open ProductModel.Action

variable {σ : Type} {w w' : World Routine σ} {room : Room} {cabinet i j : Instance Routine}
  {shelves : List InstanceId} {id : InstanceId} (allowance : Nat)

/-- **Methods are found as the types of the showroom provide them.** -/
structure Equipped (w : World Routine σ) : Prop where
  types : w.model.types = Showroom.types
  truthful : w.Truthful

/-- **An instance whose initialization begins**, with a field for its article number. -/
structure Nascent (type : TypeId) (i : Instance Routine) : Prop where
  type : i.type = type
  idle : i.busy = 0
  article : i.fields.contains Showroom.article = true
  properties : i.properties = {}

/-- The instance that keeps other values in its fields. -/
def withFields (i : Instance Routine) (fields : Association Symbol Value) : Instance Routine :=
  { i with fields }

/-- **What was made of a new instance**: its place is as it was, and it has given properties. -/
structure Equips (i : Instance Routine) (t : PropertyTable) (j : Instance Routine) : Prop where
  type : j.type = i.type
  father : j.father = i.father
  children : j.children = i.children
  element : j.element = i.element
  busy : j.busy = i.busy
  program : j.program = i.program
  properties : j.properties = t

namespace Equips

variable {t : PropertyTable}

theorem withFields (i : Instance Routine) (fields : Association Symbol Value) :
    Equips i i.properties (Showroom.withFields i fields) := ⟨rfl, rfl, rfl, rfl, rfl, rfl, rfl⟩

theorem declaring (h : Equips i t j) (d : PropertyDef) :
    Equips i (t.setup d).2 (j.declaring d) :=
  ⟨h.type, h.father, h.children, h.element, h.busy, h.program, by
    rw [Instance.declaring, h.properties]⟩

theorem storing (h : Equips i t j) (key : Symbol) (v : Value) : Equips i t (j.storing key v) :=
  ⟨h.type, h.father, h.children, h.element, h.busy, h.program, h.properties⟩

end Equips

namespace Equipped

theorem turn (h : Equipped w) (hturn : w.Turns id i w') : Equipped w' :=
  ⟨hturn.apart.types.trans h.types, hturn.truthful h.truthful⟩

/-- A property without an accessor is written. -/
theorem exists_write (h : Equipped w) (hi : w.model.arena.get? id = some i) {type : TypeId}
    (htype : i.type = type) {key : Symbol}
    (hplain : Showroom.types.findMethod type (Accessor.setter key) = none) (v : Value) :
    ∃ w', (perform language (allowance + 1) (.writeProperty id key v)).outcome w =
        some (.ok (), w') ∧
      w.Turns id (i.storing key v) w' :=
  (language.engine allowance).exists_writeProperty v hi
    ((finds_eq h.types h.truthful _ _).trans (htype ▸ hplain))

/-- A property is declared. -/
theorem exists_setup (hi : w.model.arena.get? id = some i) (hidle : i.busy = 0)
    (d : PropertyDef) :
    ∃ changed w', (perform language (allowance + 1) (.setupProperty id d)).outcome w =
        some (.ok changed, w') ∧
      w.Turns id (i.declaring d) w' :=
  exists_setupProperty hi hidle d

/-- **Furniture keeps the article number that it is made with.** -/
theorem exists_initializeFurniture (hi : w.model.arena.get? id = some i)
    (harticle : i.fields.contains article = true) (args : List Value) :
    ∃ w' fields, ((initializeFurniture ⟨some id, args⟩).run
        (perform language (allowance + 1))).outcome w = some (.ok .void, w') ∧
      w.Turns id (withFields i fields) w' := by
  cases args with
  | nil => exact ⟨w, i.fields, rfl, .refl hi⟩
  | cons v rest =>
    have hset : i.setAttribute article v = withFields i (i.fields.insert article v) := by
      rw [Instance.setAttribute, if_pos harticle]
      rfl
    have hperform : (perform language (allowance + 1) (.setAttr id article v)).outcome w =
        some (.ok (), { w with model := w.model.modify id (·.setAttribute article v) }) :=
      outcome_update hi _
    have hturn := World.Turns.modify hi (·.setAttribute article v)
    rw [hset] at hturn
    refine ⟨_, i.fields.insert article v, ?_, hturn⟩
    show ((Program.call (Op.setAttr id article v) >>= fun _ => pure .void :
      Body Routine σ Value).run _).outcome w = _
    rw [Program.outcome_run_call_bind_ok hperform]
    rfl

/-- **The initializer of all furniture is called through the supertype.** -/
theorem exists_callSuper (h : Equipped w) (hi : w.model.arena.get? id = some i)
    (harticle : i.fields.contains article = true) {typeName : String} {type : TypeId}
    (htype : Showroom.types.lookup typeName = some type)
    (hsuper : Showroom.types.supertype type = some furnitureId) (args : List Value) :
    ∃ w' fields, (perform language (allowance + 2)
        (.callSuper typeName id ⟨"initialize"⟩ args)).outcome w = some (.ok .void, w') ∧
      w.Turns id (withFields i fields) w' := by
  have hlookup : (lookupType typeName : Action Routine σ TypeId).outcome w =
      some (.ok type, w) := by
    rw [outcome_lookupType, h.types, htype]
    rfl
  have hmodel : (Action.model : Action Routine σ _).outcome w = some (.ok w.model, w) := rfl
  have hfound : w.finds furnitureId ⟨"initialize"⟩ =
      some (furnitureId, { name := ⟨"initialize"⟩, body := .initializeFurniture }) := by
    rw [finds_eq h.types h.truthful]
    rfl
  have hagrees := World.Agrees.lookingUp w furnitureId ⟨"initialize"⟩
  obtain ⟨w', fields, hrun, hturn⟩ := exists_initializeFurniture allowance
    (w := w.lookingUp furnitureId ⟨"initialize"⟩) (by rw [hagrees.model, hi]) harticle args
  refine ⟨w', fields, ?_, ((World.Turns.refl hi).agrees hagrees).trans hturn⟩
  show ((language.engine (allowance + 1)).callSuper typeName id ⟨"initialize"⟩ args).outcome w = _
  unfold Engine.callSuper
  rw [outcome_bind_ok hlookup, outcome_bind_ok hmodel, h.types, hsuper]
  dsimp only
  rw [outcome_bind_ok (outcome_findMethod _ _), hfound]
  exact (Engine.outcome_invoke rfl args).trans hrun

/-- **A new cabinet** is narrow and has no doors. -/
theorem exists_initializeCabinet (h : Equipped w) (hi : w.model.arena.get? id = some i)
    (hnascent : Nascent cabinetId i) (args : List Value) :
    ∃ w' j, ((initializeCabinet ⟨some id, args⟩).run (perform language (allowance + 2))).outcome w =
        some (.ok .void, w') ∧
      w.Turns id j w' ∧ Equips i cabinetTable j ∧
      j.stored width = .float 0.8 ∧ j.stored doors = .bool false := by
  obtain ⟨w₁, fields, hsuper, h₁⟩ := h.exists_callSuper allowance hi hnascent.article
    (show Showroom.types.lookup "Cabinet" = some cabinetId from rfl) rfl args
  have hset₁ := Equips.withFields i fields
  -- Three properties are declared, and then each gets its first value.
  obtain ⟨_, w₂, hsetup₂, h₂⟩ := exists_setup (allowance + 1) h₁.there
    (hset₁.busy.trans hnascent.idle) cabinetWidth
  have hset₂ := hset₁.declaring cabinetWidth
  obtain ⟨_, w₃, hsetup₃, h₃⟩ := exists_setup (allowance + 1) h₂.there
    (hset₂.busy.trans hnascent.idle) cabinetColor
  have hset₃ := hset₂.declaring cabinetColor
  obtain ⟨_, w₄, hsetup₄, h₄⟩ := exists_setup (allowance + 1) h₃.there
    (hset₃.busy.trans hnascent.idle) cabinetDoors
  have hset₄ := hset₃.declaring cabinetDoors
  rw [hnascent.properties, show ((((({} : PropertyTable).setup cabinetWidth).2).setup
    cabinetColor).2.setup cabinetDoors).2 = cabinetTable from rfl] at hset₄
  have hto₄ := ((h₁.trans h₂).trans h₃).trans h₄
  obtain ⟨w₅, hwrite₅, h₅⟩ := (h.turn hto₄).exists_write (allowance + 1) hto₄.there
    (hset₄.type.trans hnascent.type) (accessorless_cabinet width rfl).2 (.float 0.8)
  have hset₅ := hset₄.storing width (.float 0.8)
  have hto₅ := hto₄.trans h₅
  obtain ⟨w₆, hwrite₆, h₆⟩ := (h.turn hto₅).exists_write (allowance + 1) hto₅.there
    (hset₅.type.trans hnascent.type) (accessorless_cabinet color rfl).2 (.symbol ⟨"oak"⟩)
  have hset₆ := hset₅.storing color (.symbol ⟨"oak"⟩)
  have hto₆ := hto₅.trans h₆
  obtain ⟨w₇, hwrite₇, h₇⟩ := (h.turn hto₆).exists_write (allowance + 1) hto₆.there
    (hset₆.type.trans hnascent.type) (accessorless_cabinet doors rfl).2 (.bool false)
  refine ⟨w₇, _, ?_, hto₆.trans h₇, hset₆.storing doors (.bool false), ?_, ?_⟩
  · show ((Program.call (Op.callSuper "Cabinet" id ⟨"initialize"⟩ args) >>= _ :
      Body Routine σ Value).run _).outcome w = _
    rw [Program.outcome_run_call_bind_ok hsuper, Program.outcome_run_call_bind_ok hsetup₂,
      Program.outcome_run_call_bind_ok hsetup₃, Program.outcome_run_call_bind_ok hsetup₄,
      Program.outcome_run_call_bind_ok hwrite₅, Program.outcome_run_call_bind_ok hwrite₆,
      Program.outcome_run_call_bind_ok hwrite₇]
    rfl
  · rw [Instance.stored_storing_of_ne _ (by decide), Instance.stored_storing_of_ne _ (by decide),
      Instance.stored_storing]
  · rw [Instance.stored_storing]

/-- **A new shelf** has the width of its cabinet. -/
theorem exists_initializeShelf (h : room.Furnished cabinet shelves w)
    (hsolid : (cabinet.stored width).isVoid = false) (hi : w.model.arena.get? id = some i)
    (hcabinet : room.cabinet ≠ id) (hnew : id ∉ shelves) (hnascent : Nascent shelfId i)
    (hfather : i.father = some room.cabinet) (args : List Value) :
    ∃ w' j, ((initializeShelf ⟨some id, args⟩).run (perform language (allowance + 2))).outcome w =
        some (.ok .void, w') ∧
      w.Turns id j w' ∧ Equips i shelfTable j ∧
      j.stored width = cabinet.stored width := by
  have hequipped : Equipped w := ⟨h.types, h.truthful⟩
  have henvironment := h.ne_environment hi (by rw [hnascent.type]; decide)
  obtain ⟨w₁, fields, hsuper, h₁⟩ := hequipped.exists_callSuper allowance hi hnascent.article
    (show Showroom.types.lookup "Shelf" = some shelfId from rfl) rfl args
  have hset₁ := Equips.withFields i fields
  obtain ⟨_, w₂, hsetup₂, h₂⟩ := exists_setup (allowance + 1) h₁.there
    (hset₁.busy.trans hnascent.idle) shelfHeight
  have hset₂ := hset₁.declaring shelfHeight
  obtain ⟨_, w₃, hsetup₃, h₃⟩ := exists_setup (allowance + 1) h₂.there
    (hset₂.busy.trans hnascent.idle) shelfWidth
  have hset₃ := hset₂.declaring shelfWidth
  rw [hnascent.properties, show ((({} : PropertyTable).setup shelfHeight).2.setup shelfWidth).2 =
    shelfTable from rfl] at hset₃
  have hto₃ := (h₁.trans h₂).trans h₃
  -- The cabinet is as it was while the new shelf is being made.
  obtain ⟨w₄, hread, hagrees⟩ := (h.turn_other henvironment hcabinet hnew hto₃).exists_getProperty
    cabinetTable_contains_width
  have hto₄ := hto₃.agrees hagrees
  obtain ⟨w₅, hwrite₅, h₅⟩ := (hequipped.turn hto₄).exists_write (allowance + 1) hto₄.there
    (hset₃.type.trans hnascent.type) (accessorless_shelf height rfl).2 (.float 0.3)
  have hset₅ := hset₃.storing height (.float 0.3)
  have hto₅ := hto₄.trans h₅
  obtain ⟨w₆, hwrite₆, h₆⟩ := (hequipped.turn hto₅).exists_write (allowance + 1) hto₅.there
    (hset₅.type.trans hnascent.type) (accessorless_shelf width rfl).2 (cabinet.stored width)
  have hfind : w₃.model.arena.find id =
      .ok (((withFields i fields).declaring shelfHeight).declaring shelfWidth) := by
    rw [Arena.find, hto₃.there]
  refine ⟨w₆, _, ?_, hto₅.trans h₆, hset₅.storing width (cabinet.stored width), ?_⟩
  · show ((Program.call (Op.callSuper "Shelf" id ⟨"initialize"⟩ args) >>= _ :
      Body Routine σ Value).run _).outcome w = _
    rw [Program.outcome_run_call_bind_ok hsuper, Program.outcome_run_call_bind_ok hsetup₂,
      Program.outcome_run_call_bind_ok hsetup₃, Program.outcome_run_ask_bind_ok hfind]
    dsimp only
    rw [hset₃.father, hfather]
    dsimp only
    rw [Program.outcome_run_call_bind_ok (hread _), Program.outcome_run_call_bind_ok hwrite₅,
      hsolid, if_neg Bool.false_ne_true, Program.outcome_run_call_bind_ok hwrite₆]
    rfl
  · rw [Instance.stored_storing]

end Equipped

end ProductModel.Showroom
