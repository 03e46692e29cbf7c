import ProductModel.Proofs.Run.Bodies
import ProductModel.Proofs.Showroom.Furnished

/-!
# The routines of the showroom in a furnished room

What each routine comes to in a furnished room, and what it does to the widths of the shelves.  The
rules only look; the catalog and the handler of a cabinet write widths to shelves.

A routine performs operations, and those that call further routines need an allowance for nesting
of their own.  The routines of this file call none, so an allowance of one is enough.
-/

namespace ProductModel.Showroom

open ProductModel.Action

variable {σ : Type} {w : World Routine σ} {room : Room} {cabinet i : Instance Routine}
  {shelves : List InstanceId} (allowance : Nat)

/-- **Whether doors and a width go together.** -/
def fits (doors width : Value) : Bool :=
  !(doors.isTruthy && decide (maxDoorWidth < width.toFloat?.getD 0.0))

/-- A declared property of a cabinet has the value that is stored. -/
theorem Room.IsCabinet.propertyValue (h : room.IsCabinet i) {key : Symbol}
    (hkey : cabinetTable.contains key = true) : i.propertyValue key = i.stored key := by
  rw [Instance.propertyValue, h.properties, if_pos hkey]

/-- A declared property of a shelf has the value that is stored. -/
theorem Room.IsShelf.propertyValue (h : room.IsShelf i) {key : Symbol}
    (hkey : shelfTable.contains key = true) : i.propertyValue key = i.stored key := by
  rw [Instance.propertyValue, h.properties, if_pos hkey]

namespace Room.Furnished

/-! ## Reading and writing -/

/-- **A property of the cabinet is read.** -/
theorem exists_getProperty (h : room.Furnished cabinet shelves w) {key : Symbol}
    (hkey : cabinetTable.contains key = true) :
    ∃ w', (∀ allowance, (perform language (allowance + 1)
        (.getProperty room.cabinet key)).outcome w = some (.ok (cabinet.stored key), w')) ∧
      w.Agrees w' := by
  obtain ⟨w', hread, hagrees⟩ := bodiless_getProperty key h.there h.plain
  rw [h.isCabinet.propertyValue hkey] at hread
  exact ⟨w', fun allowance => hread (language.engine allowance), hagrees⟩

/-- **A property of a shelf is read.** -/
theorem exists_getProperty_shelf (h : room.Furnished cabinet shelves w) {s : InstanceId}
    (hs : s ∈ shelves) (hi : w.model.arena.get? s = some i) {key : Symbol}
    (hkey : shelfTable.contains key = true) :
    ∃ w', ∀ allowance, (perform language (allowance + 1) (.getProperty s key)).outcome w =
      some (.ok (i.stored key), w') := by
  obtain ⟨j, hj, hshelf⟩ := h.shelf s hs
  obtain rfl : i = j := Option.some.inj (hi.symm.trans hj)
  have hplain : w.Plain i.properties i.type := by
    rw [hshelf.properties, hshelf.type]
    exact plain_shelf h.types h.truthful
  obtain ⟨w', hread, -⟩ := bodiless_getProperty key hi hplain
  rw [hshelf.propertyValue hkey] at hread
  exact ⟨w', fun allowance => hread (language.engine allowance)⟩

/-- **A width is written to several shelves.** -/
theorem exists_writeWidths (h : room.Furnished cabinet shelves w) (v : Value)
    {ids : List InstanceId} (hids : ∀ s ∈ ids, s ∈ shelves) :
    ∃ w', ((writeWidths v ids).run (perform language (allowance + 1))).outcome w =
        some (.ok (), w') ∧
      room.Furnished cabinet shelves w' ∧ HaveWidth w' ids v ∧
      ∀ others, HaveWidth w others v → HaveWidth w' others v := by
  induction ids generalizing w with
  | nil => exact ⟨w, rfl, h, fun s hs => absurd hs List.not_mem_nil, fun _ hothers => hothers⟩
  | cons s ids ih =>
    obtain ⟨i, hi, hshelf⟩ := h.shelf s (hids s List.mem_cons_self)
    have hset : w.finds i.type (Accessor.setter width) = none := by
      rw [hshelf.type]
      exact (plain_shelf h.types h.truthful width (PropertyTable.mem_keys.mpr rfl)).2
    obtain ⟨w₁, hwrite, hturn⟩ := (language.engine allowance).exists_writeProperty v hi hset
    have hperform : (perform language (allowance + 1) (.writeProperty s width v)).outcome w =
      some (.ok (), w₁) := hwrite
    -- Shelves that have the width already keep it, be they written to or not.
    have hkept : ∀ others, HaveWidth w others v → HaveWidth w₁ others v := by
      intro others hothers t ht j hj
      by_cases hts : t = s
      · subst hts
        rw [hturn.there] at hj
        cases hj
        exact i.stored_storing width v
      · rw [hturn.apart.others t hts] at hj
        exact hothers t ht j hj
    have hwritten : HaveWidth w₁ [s] v := by
      intro t ht j hj
      obtain rfl := List.mem_singleton.mp ht
      rw [hturn.there] at hj
      cases hj
      exact i.stored_storing width v
    have h₁ := h.turn_shelf (hids s List.mem_cons_self) hturn
      ⟨hshelf.type, hshelf.father, hshelf.element, hshelf.state, hshelf.idle, hshelf.children,
        hshelf.properties⟩
    obtain ⟨w', hrest, h', hwidths, hkept'⟩ :=
      ih h₁ fun s hs => hids s (List.mem_cons_of_mem _ hs)
    refine ⟨w', ?_, h', ?_, fun others hothers => hkept' others (hkept others hothers)⟩
    · unfold writeWidths
      rw [Program.outcome_run_call_bind_ok hperform]
      exact hrest
    · intro t ht
      rcases List.mem_cons.mp ht with rfl | ht
      · exact hkept' [t] hwritten t List.mem_cons_self
      · exact hwidths t ht

/-! ## Passing a width on -/

/-- **The width of the cabinet is given to all shelves.** -/
theorem exists_giveWidth (h : room.Furnished cabinet shelves w)
    (hchildren : cabinet.children = shelves) :
    ∃ w', ((do
        let v ← Program.call (Op.getProperty room.cabinet width)
        writeWidths v (← Program.ask (Showroom.shelvesOf · room.cabinet)) : Body Routine σ Unit).run
          (perform language (allowance + 1))).outcome w = some (.ok (), w') ∧
      room.Furnished cabinet shelves w' ∧ HaveWidth w' shelves (cabinet.stored width) := by
  obtain ⟨w₁, hread, hagrees⟩ := h.exists_getProperty cabinetTable_contains_width
  have h₁ := h.agrees hagrees
  obtain ⟨w', hwrite, h', hwidths, -⟩ := h₁.exists_writeWidths allowance
    (cabinet.stored width) fun _ hs => hs
  refine ⟨w', ?_, h', hwidths⟩
  rw [Program.outcome_run_call_bind_ok (hread _),
    Program.outcome_run_ask_bind_ok (h₁.shelvesOf hchildren)]
  exact hwrite

/-- **The catalog** keeps the shelves as wide as the cabinet when a property of it was written. -/
theorem exists_spreadWidth (h : room.Furnished cabinet shelves w)
    (hchildren : cabinet.children = shelves) (key : Symbol)
    (hwidths : key ≠ width → HaveWidth w shelves (cabinet.stored width)) :
    ∃ w', ((spreadWidth room.cabinet key).run (perform language (allowance + 1))).outcome w =
        some (.ok (), w') ∧
      room.Furnished cabinet shelves w' ∧ HaveWidth w' shelves (cabinet.stored width) := by
  unfold spreadWidth
  by_cases hkey : key = width
  · obtain ⟨w', hgive, h', hwidths'⟩ := h.exists_giveWidth allowance hchildren
    refine ⟨w', ?_, h', hwidths'⟩
    rw [if_neg (not_not_intro hkey), Program.outcome_run_ask_bind_ok h.isA_cabinet]
    exact hgive
  · rw [if_pos hkey]
    exact ⟨w, rfl, h, hwidths hkey⟩

/-- **Asked about a change**, a cabinet tells whether its doors and its width go together. -/
theorem exists_cabinetChanged_asking (h : room.Furnished cabinet shelves w) (keys : Value) :
    ∃ w', ((cabinetChanged ⟨some room.cabinet, [keys, .int 1]⟩).run
        (perform language (allowance + 1))).outcome w =
        some (.ok (.bool (fits (cabinet.stored doors) (cabinet.stored width))), w') ∧
      w.Agrees w' := by
  obtain ⟨w₁, hdoors, hagrees₁⟩ := h.exists_getProperty cabinetTable_contains_doors
  obtain ⟨w₂, hwidth, hagrees₂⟩ :=
    (h.agrees hagrees₁).exists_getProperty cabinetTable_contains_width
  refine ⟨w₂, ?_, hagrees₁.trans hagrees₂⟩
  have hasked : (cabinetChanged ⟨some room.cabinet, [keys, .int 1]⟩ : Body Routine σ Value) = do
      let hasDoors := (← Program.call (Op.getProperty room.cabinet doors)).isTruthy
      let v := ((← Program.call (Op.getProperty room.cabinet width)).toFloat?).getD 0.0
      return .bool !(hasDoors && maxDoorWidth < v) := rfl
  rw [hasked, Program.outcome_run_call_bind_ok (hdoors _),
    Program.outcome_run_call_bind_ok (hwidth _)]
  rfl

/-- **Told that a change was taken back**, a cabinet gives its width to all shelves. -/
theorem exists_cabinetChanged_telling (h : room.Furnished cabinet shelves w)
    (hchildren : cabinet.children = shelves) (keys : Value) :
    ∃ w', ((cabinetChanged ⟨some room.cabinet, [keys, .int 0]⟩).run
        (perform language (allowance + 1))).outcome w = some (.ok .void, w') ∧
      room.Furnished cabinet shelves w' ∧ HaveWidth w' shelves (cabinet.stored width) := by
  obtain ⟨w', hgive, h', hwidths⟩ := h.exists_giveWidth allowance hchildren
  refine ⟨w', ?_, h', hwidths⟩
  have htold : (cabinetChanged ⟨some room.cabinet, [keys, .int 0]⟩ : Body Routine σ Value) = do
      (do
        let v ← Program.call (Op.getProperty room.cabinet width)
        writeWidths v (← Program.ask (Showroom.shelvesOf · room.cabinet)))
      return .void := by
    simp only [bind_assoc]
    rfl
  rw [htold, Program.outcome_run_bind_ok hgive]
  rfl

/-! ## Rules -/

/-- A chain that has begun on the cabinet. -/
theorem entering (h : room.Furnished cabinet shelves w) :
    room.Furnished { cabinet with busy := cabinet.busy + 1 } shelves (w.entering room.cabinet) :=
  h.turn_cabinet (.modify h.there fun i => { i with busy := i.busy + 1 })
    ⟨h.isCabinet.type, h.isCabinet.father, h.isCabinet.state, h.isCabinet.program,
      h.isCabinet.properties⟩

/-- **A cabinet accepts the type of shelves and no other one.** -/
theorem outcome_createElement (h : room.Furnished cabinet shelves w) {name : String}
    {type : TypeId} (htype : Showroom.types.lookup name = some type) :
    ∃ r, ((language.engine allowance).callRules room.cabinet Reason.createElement.symbol none
        (.symbol ⟨Showroom.types.name type⟩)).outcome w = some (.ok r, w) ∧
      (r.isSuccess = true ↔ type = shelfId) := by
  obtain ⟨hname, hinsertable⟩ := hasCategory_insertable htype
  let call : RuleCall :=
    ⟨room.cabinet, Reason.createElement.symbol, .symbol ⟨Showroom.types.name type⟩, cabinetId⟩
  have hrule : ((acceptInsertable call).run (perform language allowance)).outcome
      (w.entering room.cabinet) =
        some (.ok (.ofBool (decide (type = shelfId))), w.entering room.cabinet) := by
    have htypes : (w.entering room.cabinet).model.types = Showroom.types := h.types
    have hlookup : call.arg.toSymbol?.bind
        ((w.entering room.cabinet).model.types.lookup ·.label) = some type := by
      rw [htypes]
      exact hname
    unfold acceptInsertable
    rw [Program.outcome_run_view_bind, hlookup, ← hinsertable, htypes]
    rfl
  have hchain : w.model.types.ruleChain cabinet.type Reason.createElement.symbol none =
      [⟨cabinetId, { reason := Reason.createElement.symbol, kind := .anterior
                     body := .acceptInsertable }⟩] := by
    rw [h.types, h.isCabinet.type, ruleChain_createElement]
  by_cases hshelf : type = shelfId
  · rw [decide_eq_true hshelf] at hrule
    refine ⟨.passed 1, Engine.outcome_callRules h.there ?_, iff_of_true rfl hshelf⟩
    rw [hchain, Engine.outcome_runLinks_accept hrule]
    rfl
  · rw [decide_eq_false hshelf] at hrule
    refine ⟨.rejected ⟨room.cabinet, Reason.createElement.symbol, w.model.types.name cabinetId, 0⟩,
      Engine.outcome_callRules h.there ?_, iff_of_false Bool.false_ne_true hshelf⟩
    rw [hchain]
    rw [Engine.outcome_runLinks_reject hrule]
    rfl

/-- A cabinet does not object to what was made. -/
theorem outcome_newElement (h : room.Furnished cabinet shelves w) (arg : Value) :
    ((language.engine allowance).callRules room.cabinet Reason.newElement.symbol none arg).outcome
      w = some (.ok (.passed 0), w) := by
  refine Engine.outcome_callRules h.there ?_
  rw [h.types, h.isCabinet.type, ruleChain_newElement]
  rfl

/-- **A cabinet lets a shelf go unless it is the last one.** -/
theorem outcome_removeElement (h : room.Furnished cabinet shelves w)
    (hchildren : cabinet.children = shelves) {s : InstanceId} (hs : s ∈ shelves) :
    ∃ r, ((language.engine allowance).callRules room.cabinet Reason.removeElement.symbol none
        (.ref s)).outcome w = some (.ok r, w) ∧ (r.isSuccess = true ↔ 1 < shelves.length) := by
  have hentered := h.entering
  let call : RuleCall := ⟨room.cabinet, Reason.removeElement.symbol, .ref s, cabinetId⟩
  have hgeneral : ((language.engine allowance).run (language.rule .acceptRemoval
      ⟨room.cabinet, Reason.removeElement.symbol, .ref s, furnitureId⟩)).outcome
      (w.entering room.cabinet) = some (.ok .accept, w.entering room.cabinet) := rfl
  have hspecial : ((keepOneShelf call).run (perform language allowance)).outcome
      (w.entering room.cabinet) =
        some (.ok (.ofBool (decide (1 < shelves.length))), w.entering room.cabinet) := by
    have hkeep : (keepOneShelf call : Body Routine σ Verdict) = do
        if !(← Program.ask (·.isA s "Shelf")) then return .accept
        let shelves ← Program.ask (Showroom.shelvesOf · room.cabinet)
        return .ofBool (1 < shelves.length) := rfl
    rw [hkeep, Program.outcome_run_ask_bind_ok (hentered.isA_shelf hs)]
    exact Program.outcome_run_ask_bind_ok (hentered.shelvesOf hchildren)
  have hchain : w.model.types.ruleChain cabinet.type Reason.removeElement.symbol none =
      [⟨furnitureId, { reason := Reason.removeElement.symbol, kind := .anterior
                       body := .acceptRemoval }⟩,
        ⟨cabinetId, { reason := Reason.removeElement.symbol, kind := .anterior
                      body := .keepOneShelf }⟩] := by
    rw [h.types, h.isCabinet.type, ruleChain_removeElement]
  by_cases hmany : 1 < shelves.length
  · rw [decide_eq_true hmany] at hspecial
    refine ⟨.passed 2, Engine.outcome_callRules h.there ?_, iff_of_true rfl hmany⟩
    rw [hchain, Engine.outcome_runLinks_accept hgeneral, Engine.outcome_runLinks_accept hspecial]
    rfl
  · rw [decide_eq_false hmany] at hspecial
    refine ⟨.rejected ⟨room.cabinet, Reason.removeElement.symbol, w.model.types.name cabinetId, 1⟩,
      Engine.outcome_callRules h.there ?_, iff_of_false Bool.false_ne_true hmany⟩
    rw [hchain, Engine.outcome_runLinks_accept hgeneral, Engine.outcome_runLinks_reject hspecial]
    rfl

end Room.Furnished

end ProductModel.Showroom
