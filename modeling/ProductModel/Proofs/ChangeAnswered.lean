import ProductModel.Proofs.Run.Readings

/-!
# What setting a property answers

Setting a property tells whether a definition or a value differs from before.  The answer is found
by comparing what was captured before and after, and what is captured is more than anyone can see: a
table counts its declarations, and keeps a slot and a number for each of its entries.

`Language.change_answered` says what an answer means, whatever the product data and the type have
done while the change ran, and whether it was accepted or taken back:

* For a key that is not declared it is negative, and nothing has been done.
* Else it is positive exactly if something that can be seen differs, or the bookkeeping of the table
  does.  What can be seen are the definitions in presentation order, and the values.
* The instance is marked as changed exactly if a body has marked it, or if a value or the list of
  keys differs.

## Design

Definitions are compared in presentation order and not key by key.  So no more needs to be known of
a table than its list of entries, and a different order of the same definitions counts.
-/

namespace ProductModel

open ProductModel.Action

variable {β σ : Type} {id : InstanceId} {key : Symbol} {v : Value}

/-! ## Tables -/

/-- Comparing what is made of the items of one list. -/
theorem beq_map_map {α γ : Type} [BEq γ] (f g : α → γ) (l : List α) :
    (l.map f == l.map g) = l.all fun a => f a == g a := by
  induction l with
  | nil => rfl
  | cons a l ih => rw [List.map_cons, List.map_cons, List.cons_beq_cons, ih, List.all_cons]

namespace PropertyTable

variable {t t' : PropertyTable}

/-- **The definitions in presentation order.** -/
def presented (t : PropertyTable) : List PropertyDef :=
  (t.entries.mergeSort (fun a b => a.slot ≤ b.slot)).map (·.definition)

/-- **The bookkeeping of the entries**, in order of declaration. -/
def places (t : PropertyTable) : List (Int32 × Nat) :=
  t.entries.map fun entry => (entry.slot, entry.sequence)

theorem keys_eq_map_presented (t : PropertyTable) : t.keys = t.presented.map (·.key) := by
  unfold keys presented
  rw [List.map_map]
  rfl

/-- The same definitions have the same keys. -/
theorem keys_eq_of_presented (h : (t'.presented == t.presented) = true) : t'.keys = t.keys := by
  rw [keys_eq_map_presented, keys_eq_map_presented]
  generalize t'.presented = ds', t.presented = ds at h
  induction ds' generalizing ds with
  | nil =>
    cases ds with
    | nil => rfl
    | cons d ds => cases h
  | cons d' ds' ih =>
    cases ds with
    | nil => cases h
    | cons d ds =>
      rw [List.cons_beq_cons, Bool.and_eq_true] at h
      have hkey : (d'.key == d.key) = true := by
        have hsame : d'.same d = true := h.1
        unfold PropertyDef.same at hsame
        simp only [Bool.and_eq_true] at hsame
        exact hsame.1.1.1.1.1.1
      rw [List.map_cons, List.map_cons, beq_iff_eq.mp hkey, ih _ h.2]

/-- Two lists of entries are the same if their definitions and their places are. -/
theorem entries_same_iff (es' es : List PropertyEntry) :
    (es' == es) = true ↔ (es'.map (·.definition) == es.map (·.definition)) = true ∧
      es'.map (fun entry => (entry.slot, entry.sequence)) =
        es.map fun entry => (entry.slot, entry.sequence) := by
  induction es' generalizing es with
  | nil => cases es <;> simp
  | cons e' es' ih =>
    cases es with
    | nil => simp
    | cons e es =>
      have hentry : (e' == e) = true ↔
          (e'.definition == e.definition) = true ∧ e'.slot = e.slot ∧ e'.sequence = e.sequence := by
        show e'.same e = true ↔ _
        simp [PropertyEntry.same, and_assoc]
      simp only [List.cons_beq_cons, Bool.and_eq_true, hentry, ih, List.map_cons, List.cons.injEq,
        Prod.mk.injEq]
      constructor
      · rintro ⟨⟨hd, hs, hq⟩, hds, hps⟩
        exact ⟨⟨hd, hds⟩, ⟨hs, hq⟩, hps⟩
      · rintro ⟨⟨hd, hds⟩, ⟨hs, hq⟩, hps⟩
        exact ⟨⟨hd, hs, hq⟩, hds, hps⟩

/-- **With entries at the same places**, it does not matter in which order definitions are
compared. -/
theorem presented_beq (hplaces : t'.places = t.places) :
    (t'.presented == t.presented) =
      (t'.entries.map (·.definition) == t.entries.map (·.definition)) := by
  have hlength : t'.entries.length = t.entries.length := by
    simpa [places] using congrArg List.length hplaces
  -- Both lists are taken from one list of pairs, and sorted as that one is.
  obtain ⟨ps, hfst, hsnd⟩ : ∃ ps : List (PropertyEntry × PropertyEntry),
      ps.map Prod.fst = t'.entries ∧ ps.map Prod.snd = t.entries :=
    ⟨t'.entries.zip t.entries, List.map_fst_zip (Nat.le_of_eq hlength),
      List.map_snd_zip (Nat.le_of_eq hlength.symm)⟩
  have hslot : ∀ p ∈ ps, p.1.slot = p.2.slot := by
    have hall : ps.map (fun p => (p.1.slot, p.1.sequence)) =
        ps.map fun p => (p.2.slot, p.2.sequence) := by
      unfold places at hplaces
      rwa [← hfst, ← hsnd, List.map_map, List.map_map] at hplaces
    intro p hp
    exact congrArg Prod.fst (List.map_inj_left.mp hall p hp)
  unfold presented
  rw [← hfst, ← hsnd,
    ← List.map_mergeSort (r := fun p q : PropertyEntry × PropertyEntry => p.1.slot ≤ q.1.slot)
      (fun _ _ _ _ => rfl),
    ← List.map_mergeSort (r := fun p q : PropertyEntry × PropertyEntry => p.1.slot ≤ q.1.slot)
      (fun p hp q hq => by rw [hslot p hp, hslot q hq]),
    List.map_map, List.map_map, List.map_map, List.map_map, beq_map_map, beq_map_map]
  rw [Bool.eq_iff_iff, List.all_eq_true, List.all_eq_true]
  simp only [List.mem_mergeSort]

/-- **What the comparison of tables finds**: they are the same if what is presented is, and the
bookkeeping. -/
theorem same_iff : (t' == t) = true ↔
    (t'.presented == t.presented) = true ∧ t'.places = t.places ∧ t'.declared = t.declared := by
  have hsame : (t' == t) = true ↔ (t'.entries == t.entries) = true ∧ t'.declared = t.declared := by
    show t'.same t = true ↔ _
    simp [same]
  rw [hsame, entries_same_iff]
  constructor
  · rintro ⟨⟨hdefinitions, hplaces⟩, hdeclared⟩
    exact ⟨(presented_beq hplaces).trans hdefinitions, hplaces, hdeclared⟩
  · rintro ⟨hpresented, hplaces, hdeclared⟩
    exact ⟨⟨(presented_beq hplaces).symm.trans hpresented, hplaces⟩, hdeclared⟩

end PropertyTable

/-- Captured values are the same if the keys are and the value of each. -/
theorem sameValues_iff (f' f : Symbol → Value) (keys' keys : List Symbol) :
    PropertyCapture.sameValues (keys'.map fun k => (k, f' k)) (keys.map fun k => (k, f k)) = true ↔
      keys' = keys ∧ ∀ k ∈ keys, (f' k).same (f k) = true := by
  induction keys' generalizing keys with
  | nil => cases keys <;> simp [PropertyCapture.sameValues]
  | cons k' keys' ih =>
    cases keys with
    | nil => simp [PropertyCapture.sameValues]
    | cons k keys =>
      simp only [List.map_cons, PropertyCapture.sameValues, Bool.and_eq_true, beq_iff_eq, ih,
        List.cons.injEq, List.forall_mem_cons]
      constructor
      · rintro ⟨⟨rfl, hvalue⟩, rfl, hvalues⟩
        exact ⟨⟨rfl, rfl⟩, hvalue, hvalues⟩
      · rintro ⟨⟨rfl, rfl⟩, hvalue, hvalues⟩
        exact ⟨⟨rfl, hvalue⟩, rfl, hvalues⟩

/-! ## Changes that are carried out -/

/-- **Carrying a change out**: it is made, and taken back if it is not accepted. -/
def Engine.carryOut (e : Engine β σ) (id : InstanceId) (key : Symbol) (v : Value)
    (before : PropertyCapture) : Action β σ Unit := do
  match ← attempt (e.writeAndAsk id key v) with
  | .ok true => return
  | accepted => e.rollBack id before accepted

/-- What was carried out is compared with what was captured before. -/
theorem Engine.outcome_applyChange_eq (e : Engine β σ) (before : PropertyCapture)
    (w : World β σ) :
    (e.applyChange id key v before).outcome w =
      (e.carryOut id key v before >>= fun _ => e.compare id before).outcome w := by
  unfold applyChange carryOut
  rw [outcome_bind, outcome_bind (attempt _ >>= _), outcome_bind (attempt _)]
  rw [outcome_attempt]
  cases (e.writeAndAsk id key v).outcome w with
  | none => rfl
  | some out =>
    obtain ⟨err | (_ | _), u⟩ := out
    · exact outcome_bind _ _ _
    · exact outcome_bind _ _ _
    · rfl

/-- **A change of a property that is carried out**, and is then compared. -/
structure CompletedChange (e : Engine β σ) (id : InstanceId) (key : Symbol) (v : Value)
    extends BegunChange e id key v where
  /-- the world in which the properties are compared -/
  ended : World β σ
  carried : (e.carryOut id key v captured).outcome begun.starting = some (.ok (), ended)

/-- **A change with an answer was carried out**, unless there is no such property. -/
theorem CompletedChange.exists_of_outcome {e : Engine β σ} {asked final : World β σ} {b : Bool}
    (hset : (e.setProperty id key v).outcome asked = some (.ok b, final)) :
    ∃ i, asked.model.arena.get? id = some i ∧
      (i.properties.get? key = none ∧ b = false ∧ final = asked.clearing ∨
        ∃ (c : CompletedChange e id key v) (u : World β σ), c.asked = asked ∧
          (e.compare id c.captured).outcome c.ended = some (.ok b, u) ∧ final = u.finishing) := by
  obtain ⟨i, hi, hnone | ⟨c, u, hasked, happly, hfinal⟩⟩ := BegunChange.exists_of_outcome hset
  · exact ⟨i, hi, .inl hnone⟩
  · rw [Engine.outcome_applyChange_eq] at happly
    obtain ⟨_, ended, hcarried, hcompare⟩ := exists_of_bind_ok happly
    exact ⟨i, hi, .inr ⟨⟨c, ended, hcarried⟩, u, hasked, hcompare, hfinal⟩⟩

/-! ## What an answer means -/

namespace Engine.Readings

variable {e : Engine β σ} (R : e.Readings id) {w w' : World β σ}

/-- **Something that can be seen differs** between two worlds: a definition, the order of the keys,
or a value. -/
def Differs (w w' : World β σ) (before after : Instance β) : Prop :=
  (after.properties.presented == before.properties.presented) = false ∨
    ∃ k, (R.reads w' k).same (R.reads w k) = false

/-- **What an answer tells** about the properties in the world before, in the one in which they were
compared, and in the one after. -/
structure Tells (w ended w' : World β σ) (b : Bool) (before late after : Instance β) : Prop where
  thereBefore : w.model.arena.get? id = some before
  thereLate : ended.model.arena.get? id = some late
  thereAfter : w'.model.arena.get? id = some after
  works : R.works w'
  /-- a positive answer: something that can be seen differs, or the bookkeeping -/
  answer : b = true ↔ R.Differs w w' before after ∨
    after.properties.places ≠ before.properties.places ∨
    after.properties.declared ≠ before.properties.declared
  /-- the mark of a changed instance: it was there, or a value or the list of keys differs -/
  mark : after.changed = true ↔ late.changed = true ∨
    after.properties.keys ≠ before.properties.keys ∨
    ∃ k, (R.reads w' k).same (R.reads w k) = false

variable {R}

/-- A value that differs is the value of a captured key. -/
theorem sameValues_captured (hw : R.works w) (hw' : R.works w') {i j : Instance β}
    (hi : w.model.arena.get? id = some i) (hj : w'.model.arena.get? id = some j) :
    (!PropertyCapture.sameValues (R.captured w' j).values (R.captured w i).values) = true ↔
      j.properties.keys ≠ i.properties.keys ∨
        ∃ k, (R.reads w' k).same (R.reads w k) = false := by
  rw [Bool.not_eq_true', ← Bool.not_eq_true, captured, captured, sameValues_iff]
  constructor
  · intro hdiffers
    -- With the same keys, some value must differ.
    by_cases hkeys : j.properties.keys = i.properties.keys
    · right
      apply Classical.byContradiction
      intro hnone
      refine hdiffers ⟨hkeys, fun k _ => ?_⟩
      exact (Bool.eq_false_or_eq_true _).resolve_right fun hk => hnone ⟨k, hk⟩
    · exact .inl hkeys
  · rintro (hkeys | ⟨k, hk⟩) ⟨hsame, hvalues⟩
    · exact hkeys hsame
    · by_cases hmem : k ∈ i.properties.keys
      · rw [hvalues k hmem] at hk
        cases hk
      · -- What neither table declares has no value.
        have hbefore := R.reads_of_undeclared hw hi
          (Bool.eq_false_iff.mpr fun h => hmem (PropertyTable.mem_keys.mpr h))
        have hafter := R.reads_of_undeclared hw' hj
          (Bool.eq_false_iff.mpr fun h => hmem (hsame ▸ PropertyTable.mem_keys.mpr h))
        rw [hbefore, hafter] at hk
        cases hk

/-- **What the comparison answers.** -/
theorem tells {before late : Instance β} {ended u : World β σ} {b : Bool} (hw : R.works w)
    (hended : R.works ended) (hbefore : w.model.arena.get? id = some before)
    (hlate : ended.model.arena.get? id = some late)
    (hcompare : (e.compare id (R.captured w before)).outcome ended = some (.ok b, u)) :
    ∃ after, R.Tells w ended u.finishing b before late after := by
  obtain ⟨u', differs, hdiffers, hout, hworks, hreads, hframe⟩ :=
    R.exists_compare hended hlate (R.captured w before)
  obtain ⟨hanswer, rfl⟩ := Prod.mk.inj (Option.some.inj (hcompare.symm.trans hout))
  obtain ⟨after, hafter, htable, hmark⟩ := World.exists_of_frame hframe
  obtain ⟨hfinal, hfinally⟩ := R.changing hworks u.model.changes.finish
  have hread : R.reads u.finishing = R.reads ended := hfinally.trans hreads
  have hvalues := sameValues_captured hw hended hbefore hlate
  rw [← hdiffers, ← hread, ← htable] at hvalues
  -- The answer is of two parts, values and tables, and each is read for itself.
  have hb : b = true ↔ differs = true ∨ (after.properties == before.properties) = false := by
    rw [Except.ok.inj hanswer, htable, Bool.or_eq_true, Bool.not_eq_true']
    exact Iff.rfl
  have htables : (after.properties == before.properties) = false ↔
      (after.properties.presented == before.properties.presented) = false ∨
        after.properties.places ≠ before.properties.places ∨
        after.properties.declared ≠ before.properties.declared := by
    rw [← Bool.not_eq_true, PropertyTable.same_iff, ← Bool.not_eq_true,
      Classical.not_and_iff_not_or_not, Classical.not_and_iff_not_or_not]
  refine ⟨after, hbefore, hlate, hafter, hfinal, ?_, ?_⟩
  · rw [hb, hvalues, htables]
    unfold Differs
    constructor
    · rintro ((hkeys | hvalue) | hpresented | hbookkeeping)
      · -- Other keys come with other definitions.
        refine .inl (.inl (Bool.eq_false_iff.mpr fun hsame => ?_))
        exact hkeys (PropertyTable.keys_eq_of_presented hsame)
      · exact .inl (.inr hvalue)
      · exact .inl (.inl hpresented)
      · exact .inr hbookkeeping
    · rintro ((hpresented | hvalue) | hbookkeeping)
      · exact .inr (.inl hpresented)
      · exact .inl (.inr hvalue)
      · exact .inr (.inr hbookkeeping)
  · rw [hmark, Bool.or_eq_true, hvalues]

end Engine.Readings

/-- **What the answer to setting a property means**, in every run of every language. -/
theorem Language.change_answered (L : Language β σ) {allowance : Nat}
    (R : (L.engine allowance).Readings id) {asked final : World β σ} {b : Bool}
    (hset : (perform L (allowance + 1) (.setProperty id key v)).outcome asked =
      some (.ok b, final)) :
    ∃ i, asked.model.arena.get? id = some i ∧
      (i.properties.get? key = none ∧ b = false ∧ final = asked.clearing ∨
        ∃ c : CompletedChange (L.engine allowance) id key v, c.asked = asked ∧
          (c.definition.kind.choiceMethod? = none → R.works asked → R.Same asked c.checked) ∧
          (R.works c.checked → R.works c.ended → ∃ before late after,
            R.Tells c.checked c.ended final b before late after)) := by
  obtain ⟨i, hi, hnone | ⟨c, u, rfl, hcompare, rfl⟩⟩ := CompletedChange.exists_of_outcome hset
  · exact ⟨i, hi, .inl hnone⟩
  · refine ⟨i, hi, .inr ⟨c, rfl, fun hchoice hworks => ?_, fun hchecked hended => ?_⟩⟩
    · rw [Engine.eq_clearing_of_valid hchoice c.admitted]
      exact R.same_changing hworks _
    · obtain ⟨before, hbefore⟩ := R.there hchecked
      obtain ⟨late, hlate⟩ := R.there hended
      obtain ⟨_, hcapture, -⟩ := R.exists_capture hchecked hbefore
      obtain ⟨hcaptured, -⟩ := Prod.mk.inj (Option.some.inj (c.capture.symm.trans hcapture))
      rw [Except.ok.inj hcaptured] at hcompare
      obtain ⟨after, htells⟩ := Engine.Readings.tells hchecked hended hbefore hlate hcompare
      exact ⟨before, late, after, htells⟩

/-! ## A tray that is changed by nothing -/

namespace Tray

/-- The width of a tray. -/
def width : PropertyDef := { key := ⟨"width"⟩, name := "Width", kind := .int }

/-- A property that does not last. -/
def label : PropertyDef := { key := ⟨"label"⟩, name := "Label", kind := .string }

/-- **The code of a tray.**  Its product data declare a property and remove it again. -/
def language : Language Unit Unit where
  method _ _ := .pure .void
  rule _ _ := .pure .accept
  evaluate _ tray _ := do
    let _ ← Program.call (Op.setupProperty tray label)
    let _ ← Program.call (Op.removeProperty tray label.key)
    return
  inspect _ _ := .pure ()
  transformed _ _ _ host := host

/-- Builds a tray with a width. -/
def build : Body Unit Unit Unit := do
  let _ ← Program.call (Op.register { name := "Tray" })
  let tray ← Program.call (Op.instantiate "Tray" none "tray" [])
  Program.call (Op.setProductData tray { evaluate := some () })
  let _ ← Program.call (Op.setupProperty tray width)
  Program.call (Op.writeProperty tray width.key (.int 1))

/-- The engine that runs the code of a tray. -/
abbrev engine : Engine Unit Unit := language.engine 2

/-- **A tray gets the width that it has**, and the answer is positive. -/
theorem exists_answered :
    ∃ asked final : World Unit Unit,
      (perform language 3 (.setProperty ⟨0, 0⟩ width.key (.int 1))).outcome asked =
        some (.ok true, final) ∧
      (∃ i, asked.model.arena.get? ⟨0, 0⟩ = some i ∧
        (∃ d, i.properties.get? width.key = some d ∧ d.kind.choiceMethod? = none) ∧
        asked.Plain i.properties i.type ∧
        ∃ after, final.model.arena.get? ⟨0, 0⟩ = some after ∧ after.changed = false ∧
          (after.properties.presented == i.properties.presented) = true ∧
          after.properties.places = i.properties.places) ∧
      ∃ captured begun ended late,
        (engine.capture ⟨0, 0⟩).outcome asked.clearing = some (.ok captured, begun) ∧
        (engine.carryOut ⟨0, 0⟩ width.key (.int 1) captured).outcome begun.starting =
          some (.ok (), ended) ∧
        ended.model.arena.get? ⟨0, 0⟩ = some late ∧ ended.Plain late.properties late.type := by
  have hrun : ((Body.exec language 3 build).outcome { host := () }).any (fun built =>
      ((perform language 3 (.setProperty ⟨0, 0⟩ width.key (.int 1))).outcome built.2).any
        (fun set => (set.1.toOption == some true) &&
      (built.2.model.arena.get? ⟨0, 0⟩).any fun i =>
        (i.properties.get? width.key).any (fun d => d.kind.choiceMethod? = none) &&
        built.2.Plain i.properties i.type &&
      (set.2.model.arena.get? ⟨0, 0⟩).any fun after => !after.changed &&
        after.properties.presented == i.properties.presented &&
        after.properties.places = i.properties.places) &&
      ((engine.capture ⟨0, 0⟩).outcome built.2.clearing).any fun begun =>
        begun.1.toOption.any fun captured =>
      ((engine.carryOut ⟨0, 0⟩ width.key (.int 1) captured).outcome begun.2.starting).any
        fun ended => ended.1.isOk && (ended.2.model.arena.get? ⟨0, 0⟩).any fun late =>
          ended.2.Plain late.properties late.type) = true := by
    decide +kernel
  simp only [Option.any_eq_true, Bool.and_eq_true, Bool.not_eq_true', decide_eq_true_eq,
    Prod.exists] at hrun
  obtain ⟨_, asked, -, ⟨answer, final, hset, hanswer, i, hi, ⟨⟨d, hd, hchoice⟩, hplain⟩, after,
    hafter, ⟨hunmarked, hpresented⟩, hplaces⟩, result, begun, hcapture, captured, hcaptured, ended',
    ended, hcarried, hok, late, hlate, hlatePlain⟩ := hrun
  obtain _ | answer := answer
  · cases hanswer
  obtain rfl : answer = true := Option.some.inj (beq_iff_eq.mp hanswer)
  obtain _ | result := result
  · cases hcaptured
  obtain rfl : result = captured := Option.some.inj hcaptured
  obtain _ | _ := ended'
  · cases hok
  exact ⟨asked, final, hset, ⟨i, hi, ⟨d, hd, hchoice⟩, hplain, after, hafter, hunmarked, hpresented,
    hplaces⟩, result, begun, ended, late, hcapture, hcarried, hlate, hlatePlain⟩

end Tray

/-- A tray is answered that something differs, when nothing does that can be seen: its product data
have declared a property and removed it again, and declarations are counted. -/
theorem Language.change_answered_tray :
    ∃ asked final : World Unit Unit,
      (perform Tray.language 3 (.setProperty ⟨0, 0⟩ Tray.width.key (.int 1))).outcome asked =
        some (.ok true, final) ∧
      ∃ (c : CompletedChange (Tray.language.engine 2) ⟨0, 0⟩ Tray.width.key (.int 1))
        (before late after : Instance Unit), c.asked = asked ∧
        ((Tray.language.engine 2).plainReadings ⟨0, 0⟩).Tells c.checked c.ended final true before
          late after ∧
        ¬((Tray.language.engine 2).plainReadings ⟨0, 0⟩).Differs c.checked final before after ∧
        after.properties.places = before.properties.places ∧
        after.properties.declared ≠ before.properties.declared := by
  obtain ⟨asked, final, hset, ⟨i, hi, ⟨d, hd, hchoice⟩, hplain, after, hafter, hunmarked,
    hpresented, hplaces⟩, captured, begun, ended, late, hcapture, hcarried, hlate, hlatePlain⟩ :=
    Tray.exists_answered
  let R := Tray.engine.plainReadings ⟨0, 0⟩
  obtain ⟨i', hi', ⟨hnone, -⟩ | ⟨c, rfl, hquiet, htells⟩⟩ :=
    Language.change_answered Tray.language R hset
  · rw [hi] at hi'
    cases hi'
    rw [hd] at hnone
    cases hnone
  obtain ⟨j, hj, hdefinition⟩ := c.declared
  rw [hi] at hj
  cases hj
  obtain rfl : d = c.definition := Option.some.inj (hd.symm.trans hdefinition)
  have hchecked : c.checked = c.asked.clearing := Engine.eq_clearing_of_valid hchoice c.admitted
  have hworks : R.works c.checked := (hquiet hchoice ⟨i, hi, hplain⟩).works
  have hcapture' := c.capture
  rw [hchecked, hcapture] at hcapture'
  obtain ⟨hcaptured, hbegun⟩ := Prod.mk.inj (Option.some.inj hcapture')
  obtain rfl := Except.ok.inj hcaptured
  obtain rfl := hbegun
  obtain ⟨-, rfl⟩ := Prod.mk.inj (Option.some.inj (hcarried.symm.trans c.carried))
  obtain ⟨before, late', after', htold⟩ := htells hworks ⟨late, hlate, hlatePlain⟩
  have hbefore := htold.thereBefore
  rw [hchecked] at hbefore
  obtain rfl : i = before := Option.some.inj (hi.symm.trans hbefore)
  obtain rfl : after = after' := Option.some.inj (hafter.symm.trans htold.thereAfter)
  have hdiffers : ¬R.Differs c.checked final i after := by
    rintro (hdefinitions | hvalue)
    · rw [hpresented] at hdefinitions
      cases hdefinitions
    · have hmarked := htold.mark.mpr (.inr (.inr hvalue))
      rw [hunmarked] at hmarked
      cases hmarked
  refine ⟨c.asked, final, hset, c, i, late', after, rfl, htold, hdiffers, hplaces, ?_⟩
  exact ((htold.answer.mp rfl).resolve_left hdiffers).resolve_left (absurd hplaces)

end ProductModel
