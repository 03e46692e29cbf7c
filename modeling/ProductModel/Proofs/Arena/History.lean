import ProductModel.Proofs.Arena.Counted

/-!
# The history of an arena

An arena answers calls of two kinds: insertions, and removals with any handles at all.  The log of
its answers is the record that the arena is compared with:

* a handle is given out once (`Kept.distinct`);
* an instance is there from its insertion to the next removal of its handle, and every other
  removal finds nothing (`Kept.found`, `Kept.missed`);
* the free list is the list of the vacant slots, and the slot that was freed last is filled first
  (`Kept.free`, `Kept.reused`);
* the arena counts its instances (`Kept.counted`).

Generations are of 32 bits, so all of this is about histories in which no slot is freed as often as
there are generations.

## Design

`Ledger` is what one call preserves.  It tells from a slot's generation which handles of the slot
were given out: those of earlier generations, and the one of the current generation if the slot
is occupied.
-/

namespace ProductModel

namespace Arena

variable {β : Type}

/-- **A call** on an arena. -/
inductive Call (β : Type) where
  | insert (i : Instance β)
  | remove (id : InstanceId)

/-- **What a call came to.** -/
inductive Event (β : Type) where
  | inserted (id : InstanceId) (i : Instance β)
  | refused (err : HierarchyError)
  | removed (id : InstanceId) (i : Instance β)
  /-- a removal that found nothing -/
  | missed (id : InstanceId)

/-- The answer of an arena to a call, and the arena afterwards. -/
def answer (a : Arena β) : Call β → Event β × Arena β
  | .insert i =>
    match a.insert i with
    | .ok (id, b) => (.inserted id i, b)
    | .error err => (.refused err, a)
  | .remove id =>
    match a.remove id with
    | some (i, b) => (.removed id i, b)
    | none => (.missed id, a)

/-- **A history of calls** on an arena without instances: the arena after them, and the log of their
answers.  The last call and its answer stand first. -/
def after : List (Call β) → Arena β × List (Event β)
  | [] => (empty, [])
  | c :: calls =>
    let (a, log) := after calls
    let (e, b) := a.answer c
    (b, e :: log)

namespace Event

/-- Whether the handle was given out. -/
def issue? : Event β → Option InstanceId
  | inserted id _ => some id
  | _ => none

/-- Whether the removal of a handle was asked for. -/
def Removes (id : InstanceId) : Event β → Prop
  | removed x _ => x = id
  | missed x => x = id
  | _ => False

/-- Whether a slot was freed. -/
def frees (index : Nat) : Event β → Bool
  | removed id _ => id.slot.toNat == index
  | _ => false

end Event

/-- The handles that were given out. -/
def issued (log : List (Event β)) : List InstanceId := log.filterMap (·.issue?)

/-- How often a slot was freed. -/
def timesFreed (log : List (Event β)) (index : Nat) : Nat := log.countP (·.frees index)

/-- When a slot was freed last: the number of answers up to then, or zero if it never was. -/
def lastFreed (index : Nat) : List (Event β) → Nat
  | [] => 0
  | e :: log => if e.frees index then log.length + 1 else lastFreed index log

/-- **An instance was inserted** and its handle was not removed since. -/
def Standing (log : List (Event β)) (id : InstanceId) (i : Instance β) : Prop :=
  ∃ later earlier, log = later ++ .inserted id i :: earlier ∧ ∀ e ∈ later, ¬e.Removes id

/-- Whether a slot is there and vacant. -/
def Vacant (a : Arena β) (index : Nat) : Prop := ∃ g, a.slots[index]? = some ⟨g, none⟩

/-- **An arena that is as its log says.** -/
structure Kept (a : Arena β) (log : List (Event β)) : Prop where
  /-- no handle is given out twice -/
  distinct : (issued log).Nodup
  found : ∀ id i, a.get? id = some i ↔ Standing log id i
  /-- what is there is removed -/
  removed : ∀ id i, Standing log id i → ∃ b, a.answer (.remove id) = (.removed id i, b)
  /-- a removal of anything else finds nothing and changes nothing -/
  missed : ∀ id, (∀ i, ¬Standing log id i) → a.answer (.remove id) = (.missed id, a)
  free : a.free.Nodup ∧ ∀ index, index ∈ a.free ↔ a.Vacant index
  /-- if slots are vacant, the next instance comes into the one that was freed last -/
  reused : ∀ i, (∃ index, a.Vacant index) →
    ∃ id b, a.answer (.insert i) = (.inserted id i, b) ∧ a.Vacant id.slot.toNat ∧
      ∀ index, a.Vacant index → index ≠ id.slot.toNat →
        lastFreed index log < lastFreed id.slot.toNat log
  counted : ∃ ids : List InstanceId, ids.Nodup ∧
    (∀ id, id ∈ ids ↔ ∃ i, a.get? id = some i) ∧ a.size = ids.length

/-! ## Reading a log -/

section Log

variable {log : List (Event β)} {e : Event β} {id x : InstanceId} {i j : Instance β} {index : Nat}

@[simp] theorem issued_cons : issued (e :: log) = e.issue?.toList ++ issued log := by
  unfold issued
  cases h : e.issue? <;> simp [h]

theorem timesFreed_cons :
    timesFreed (e :: log) index = timesFreed log index + if e.frees index then 1 else 0 :=
  List.countP_cons

theorem timesFreed_le_cons : timesFreed log index ≤ timesFreed (e :: log) index := by
  rw [timesFreed_cons]
  exact Nat.le_add_right _ _

theorem timesFreed_le_length : timesFreed log index ≤ log.length := List.countP_le_length

theorem lastFreed_le_length : lastFreed index log ≤ log.length := by
  induction log with
  | nil => exact Nat.le_refl 0
  | cons e log ih =>
    unfold lastFreed
    split
    · exact Nat.le_refl _
    · exact Nat.le_succ_of_le ih

theorem lastFreed_cons_of_not (h : e.frees index = false) :
    lastFreed index (e :: log) = lastFreed index log := by
  rw [lastFreed, h]
  rfl

theorem timesFreed_cons_of_not (h : e.frees index = false) :
    timesFreed (e :: log) index = timesFreed log index := by
  rw [timesFreed_cons, h]
  rfl

theorem Event.frees_removed_self : (removed id i).frees id.slot.toNat = true := beq_self_eq_true _

theorem Event.frees_removed_of_ne (h : index ≠ id.slot.toNat) : (removed id i).frees index = false :=
  beq_eq_false_iff_ne.mpr (Ne.symm h)

theorem not_standing_nil : ¬Standing [] id i := by
  rintro ⟨later, earlier, h, -⟩
  simp at h

/-- **What stands after one more answer.** -/
theorem standing_cons :
    Standing (e :: log) id i ↔ e = .inserted id i ∨ (¬e.Removes id ∧ Standing log id i) := by
  constructor
  · rintro ⟨later, earlier, heq, hnone⟩
    cases later with
    | nil => exact Or.inl (List.cons.inj heq).1
    | cons e' later =>
      obtain ⟨rfl, hlog⟩ := List.cons.inj heq
      exact Or.inr ⟨hnone _ List.mem_cons_self, later, earlier, hlog,
        fun d hd => hnone d (List.mem_cons_of_mem _ hd)⟩
  · rintro (rfl | ⟨hnot, later, earlier, rfl, hnone⟩)
    · exact ⟨[], log, rfl, fun d hd => nomatch hd⟩
    · refine ⟨e :: later, earlier, rfl, ?_⟩
      intro d hd
      rcases List.mem_cons.mp hd with rfl | hd
      · exact hnot
      · exact hnone d hd

end Log

/-! ## The answers to calls -/

section Answers

variable {a b : Arena β} {id : InstanceId} {i : Instance β}

theorem answer_insert_ok (h : a.insert i = .ok (id, b)) :
    a.answer (.insert i) = (.inserted id i, b) := by
  simp only [answer, h]

theorem answer_insert_error {err : HierarchyError} (h : a.insert i = .error err) :
    a.answer (.insert i) = (.refused err, a) := by
  simp only [answer, h]

theorem answer_remove_some (h : a.get? id = some i) :
    a.answer (.remove id) = (.removed id i, a.without id) := by
  rw [without_of_get?_eq_some h]
  simp only [answer, remove, h]

theorem answer_remove_none (h : a.get? id = none) : a.answer (.remove id) = (.missed id, a) := by
  simp only [answer, remove, h]

/-- If a slot is vacant, there is room. -/
theorem exists_insert_of_free {index : Nat} {free : List Nat} (i : Instance β)
    (h : a.free = index :: free) : ∃ id b, a.insert i = .ok (id, b) := by
  unfold insert
  rw [h]
  exact ⟨_, _, rfl⟩

/-- **What an insertion does to slots**: it fills one that is vacant and free, or a new one. -/
theorem insert_slots (h : a.Stored) (hins : a.insert i = .ok (id, b)) :
    b.slots[id.slot.toNat]? = some ⟨id.generation, some i⟩ ∧
      (∀ index, index ≠ id.slot.toNat → b.slots[index]? = a.slots[index]?) ∧
      b.live = a.live + 1 ∧
      ((a.free = id.slot.toNat :: b.free ∧
          a.slots[id.slot.toNat]? = some ⟨id.generation, none⟩) ∨
        (a.free = [] ∧ b.free = [] ∧ id.slot.toNat = a.slots.length ∧ id.generation = 0)) := by
  have hnew := get?_eq_some_iff.mp ((get?_insert h hins id).trans (if_pos rfl))
  rcases insert_cases h hins with
    ⟨index, free, g, hfree, hg, hlt, rfl, rfl⟩ | ⟨hfree, hlt, rfl, rfl⟩
  · have hslot := slot_handle hlt g
    refine ⟨hnew, ?_, rfl, Or.inl ⟨by rw [hslot]; exact hfree, by rw [hslot]; exact hg⟩⟩
    intro k hk
    rw [hslot] at hk
    exact List.getElem?_set_ne (Ne.symm hk)
  · have hslot := slot_handle hlt 0
    refine ⟨hnew, ?_, rfl, Or.inr ⟨hfree, hfree, hslot, rfl⟩⟩
    intro k hk
    rw [hslot] at hk
    -- Behind the new slot there is none, neither before nor afterwards.
    rcases Nat.lt_or_gt_of_ne hk with hlt | hgt
    · exact List.getElem?_append_left hlt
    · rw [List.getElem?_eq_none (Nat.le_of_lt hgt), List.getElem?_eq_none]
      simp only [List.length_append, List.length_singleton]
      omega

/-- **What a removal does to slots**: the slot is vacant in its next generation, and free. -/
theorem without_slots (hi : a.get? id = some i) :
    (a.without id).slots[id.slot.toNat]? = some ⟨id.generation + 1, none⟩ ∧
      (∀ index, index ≠ id.slot.toNat → (a.without id).slots[index]? = a.slots[index]?) ∧
      (a.without id).slots.length = a.slots.length ∧
      (a.without id).free = id.slot.toNat :: a.free := by
  have hlt : id.slot.toNat < a.slots.length :=
    (List.getElem?_eq_some_iff.mp (get?_eq_some_iff.mp hi)).1
  rw [without_of_get?_eq_some hi]
  exact ⟨List.getElem?_set_self hlt, fun _ hne => List.getElem?_set_ne (Ne.symm hne),
    List.length_set, rfl⟩

end Answers

/-! ## What a call preserves -/

/-- **The handles of a slot that were given out**: those of its earlier generations, and the one of
its generation if it is occupied. -/
def Slot.Issued (s : Slot β) (g : UInt32) : Prop :=
  g.toNat < s.generation.toNat ∨ (g = s.generation ∧ s.content ≠ none)

/-- **An arena and its log go together.** -/
structure Ledger (a : Arena β) (log : List (Event β)) : Prop where
  stored : a.Stored
  /-- every vacant slot is free -/
  listed : ∀ index, a.Vacant index → index ∈ a.free
  /-- the generation counts how often a slot was freed -/
  generation : ∀ index s, a.slots[index]? = some s → s.generation.toNat = timesFreed log index
  unborn : ∀ index, a.slots.length ≤ index → timesFreed log index = 0
  issued : ∀ id, id ∈ Arena.issued log ↔
    ∃ s, a.slots[id.slot.toNat]? = some s ∧ Slot.Issued s id.generation
  distinct : (Arena.issued log).Nodup
  found : ∀ id i, a.get? id = some i ↔ Standing log id i
  /-- the slots that were freed later stand first -/
  recent : a.free.Pairwise fun x y => lastFreed y log < lastFreed x log
  counted : ∃ ids : List InstanceId, ids.Nodup ∧
    (∀ id, id ∈ ids ↔ ∃ i, a.get? id = some i) ∧ a.live = ids.length

namespace Ledger

variable {a b : Arena β} {log : List (Event β)} {e : Event β} {id x : InstanceId}
  {i : Instance β} {index : Nat}

theorem empty : Ledger (Arena.empty : Arena β) [] where
  stored := stored_empty
  listed := by
    rintro index ⟨g, h⟩
    cases h
  generation := by
    intro index s h
    cases h
  unborn _ _ := rfl
  issued := by
    intro id
    constructor
    · intro h
      cases h
    · rintro ⟨s, h, -⟩
      cases h
  distinct := List.nodup_nil
  found := by
    intro id i
    rw [get?_empty]
    exact iff_of_false (fun h => nomatch h) not_standing_nil
  recent := List.Pairwise.nil
  counted := ⟨[], List.nodup_nil, by simp, rfl⟩

/-- A slot that is free is not the slot of what is there. -/
theorem not_mem_free (h : Ledger a log) (hi : a.get? id = some i) : id.slot.toNat ∉ a.free := by
  intro hmem
  obtain ⟨g, hg⟩ := h.stored.vacant _ hmem
  rw [get?_eq_some_iff.mp hi] at hg
  simp at hg

/-- **An answer that concerns no instance** leaves all as it is. -/
theorem noted (h : Ledger a log) (hissue : e.issue? = none) (hfrees : ∀ k, e.frees k = false)
    (hfound : ∀ id i, Standing (e :: log) id i ↔ Standing log id i) : Ledger a (e :: log) where
  stored := h.stored
  listed := h.listed
  generation index s hs := by
    rw [timesFreed_cons, hfrees]
    exact h.generation index s hs
  unborn index hlen := by
    rw [timesFreed_cons, hfrees]
    exact h.unborn index hlen
  issued id := by
    rw [issued_cons, hissue]
    exact h.issued id
  distinct := by
    rw [issued_cons, hissue]
    exact h.distinct
  found id i := (h.found id i).trans (hfound id i).symm
  recent := h.recent.imp fun {x y} hlt => by
    rw [lastFreed_cons_of_not (hfrees x), lastFreed_cons_of_not (hfrees y)]
    exact hlt
  counted := h.counted

theorem refused (h : Ledger a log) (err : HierarchyError) : Ledger a (.refused err :: log) := by
  refine h.noted rfl (fun _ => rfl) fun id i => ?_
  rw [standing_cons]
  simp [Event.Removes]

/-- **A removal that finds nothing** was one of a handle without an instance. -/
theorem missed (h : Ledger a log) (hx : a.get? x = none) : Ledger a (.missed x :: log) := by
  refine h.noted rfl (fun _ => rfl) fun id i => ?_
  rw [standing_cons]
  constructor
  · rintro (heq | ⟨-, hs⟩)
    · cases heq
    · exact hs
  · intro hs
    refine Or.inr ⟨?_, hs⟩
    rintro rfl
    rw [← h.found, hx] at hs
    cases hs

/-- The number of instances is right. -/
theorem toCounted (h : Ledger a log) : a.Counted := by
  obtain ⟨ids, hnodup, hmem, hlive⟩ := h.counted
  exact ⟨h.stored, ids, hnodup, fun x => (hmem x).trans Option.isSome_iff_exists.symm, hlive.symm⟩

/-! ### An insertion -/

section Insertion

variable (h : Ledger a log) (hins : a.insert i = .ok (id, b))
include h hins

/-- The handle that an insertion gives out was not given out before. -/
theorem fresh : id ∉ Arena.issued log := by
  intro hid
  obtain ⟨s, hs, hissued⟩ := (h.issued id).mp hid
  obtain ⟨-, -, -, ⟨-, hvacant⟩ | ⟨-, -, hlen, -⟩⟩ := insert_slots h.stored hins
  · rw [hvacant] at hs
    cases hs
    rcases hissued with hlt | ⟨-, hcontent⟩
    · exact Nat.lt_irrefl _ hlt
    · exact hcontent rfl
  · rw [hlen, List.getElem?_eq_none (Nat.le_refl _)] at hs
    cases hs

theorem listed_inserted (hvacant : b.Vacant index) : index ∈ b.free := by
  obtain ⟨hslot, hothers, -, hbefore⟩ := insert_slots h.stored hins
  obtain ⟨g, hg⟩ := hvacant
  have hne : index ≠ id.slot.toNat := by
    rintro rfl
    rw [hslot] at hg
    cases hg
  have hmem := h.listed index ⟨g, (hothers index hne).symm.trans hg⟩
  rcases hbefore with ⟨hfree, -⟩ | ⟨hfree, -⟩
  · rw [hfree] at hmem
    exact (List.mem_cons.mp hmem).resolve_left hne
  · rw [hfree] at hmem
    cases hmem

/-- The slot that is filled was freed as often as its generation says. -/
theorem generation_inserted : id.generation.toNat = timesFreed log id.slot.toNat := by
  obtain ⟨-, -, -, ⟨-, hvacant⟩ | ⟨-, -, hlen, hzero⟩⟩ := insert_slots h.stored hins
  · exact h.generation _ ⟨id.generation, none⟩ hvacant
  · rw [hzero, hlen, h.unborn _ (Nat.le_refl _)]
    rfl

theorem unborn_inserted (hlen : b.slots.length ≤ index) : timesFreed log index = 0 := by
  obtain ⟨hslot, hothers, -, -⟩ := insert_slots h.stored hins
  have hnone := List.getElem?_eq_none hlen
  have hne : index ≠ id.slot.toNat := by
    rintro rfl
    rw [hslot] at hnone
    cases hnone
  rw [hothers index hne, List.getElem?_eq_none_iff] at hnone
  exact h.unborn index hnone

/-- Of the slot that is filled one more generation was given out. -/
theorem issued_inserted : x ∈ id :: Arena.issued log ↔
    ∃ s, b.slots[x.slot.toNat]? = some s ∧ Slot.Issued s x.generation := by
  obtain ⟨hslot, hothers, -, hbefore⟩ := insert_slots h.stored hins
  rw [List.mem_cons, h.issued]
  by_cases hx : x.slot.toNat = id.slot.toNat
  · have hid : x = id ↔ x.generation = id.generation :=
      ⟨fun heq => by rw [heq], InstanceId.eq_of_slot_of_generation hx⟩
    rw [hx, hslot, hid]
    rcases hbefore with ⟨-, hvacant⟩ | ⟨-, -, hlen, hzero⟩
    · simp [hvacant, Slot.Issued, or_comm]
    · simp [hlen, hzero, Slot.Issued]
  · have hne : x ≠ id := fun heq => hx (by rw [heq])
    rw [hothers _ hx]
    simp [hne]

theorem found_inserted (x : InstanceId) (j : Instance β) :
    b.get? x = some j ↔ Standing (.inserted id i :: log) x j := by
  rw [get?_insert h.stored hins, standing_cons]
  by_cases hx : x = id
  · subst hx
    have hnone : ¬Standing log x j := by
      rw [← h.found, get?_eq_none_of_insert h.stored hins]
      exact fun hj => nomatch hj
    simp [hnone]
  · simp [hx, Ne.symm hx, Event.Removes, h.found]

theorem recent_inserted : b.free.Pairwise fun x y => lastFreed y log < lastFreed x log := by
  obtain ⟨-, -, -, ⟨hfree, -⟩ | ⟨-, hnil, -⟩⟩ := insert_slots h.stored hins
  · have hrecent := h.recent
    rw [hfree] at hrecent
    exact hrecent.tail
  · rw [hnil]
    exact List.Pairwise.nil

/-- **An insertion** fills a slot whose generation was not given out. -/
theorem inserted : Ledger b (.inserted id i :: log) where
  stored := h.stored.insert hins
  listed _ := h.listed_inserted hins
  generation index s hs := by
    obtain ⟨hslot, hothers, -⟩ := insert_slots h.stored hins
    rw [timesFreed_cons_of_not rfl]
    by_cases hindex : index = id.slot.toNat
    · subst hindex
      rw [hslot] at hs
      cases hs
      exact h.generation_inserted hins
    · exact h.generation index s ((hothers index hindex).symm.trans hs)
  unborn index hlen := by
    rw [timesFreed_cons_of_not rfl]
    exact h.unborn_inserted hins hlen
  issued _ := by
    rw [issued_cons]
    exact h.issued_inserted hins
  distinct := by
    rw [issued_cons]
    exact List.nodup_cons.mpr ⟨h.fresh hins, h.distinct⟩
  found := h.found_inserted hins
  recent := h.recent_inserted hins
  counted := (h.toCounted.insert hins).exists_handles

end Insertion

/-! ### A removal -/

section Removal

variable (h : Ledger a log) (hi : a.get? id = some i)
include h hi

theorem listed_removed (hvacant : (a.without id).Vacant index) : index ∈ (a.without id).free := by
  obtain ⟨-, hothers, -, hfree⟩ := without_slots hi
  obtain ⟨g, hg⟩ := hvacant
  rw [hfree]
  by_cases hindex : index = id.slot.toNat
  · rw [hindex]
    exact List.mem_cons_self
  · rw [hothers index hindex] at hg
    exact List.mem_cons_of_mem _ (h.listed index ⟨g, hg⟩)

/-- As long as there is a next generation, it is greater by one. -/
theorem toNat_next (hbound : timesFreed (.removed id i :: log) id.slot.toNat < UInt32.size) :
    (id.generation + 1).toNat = id.generation.toNat + 1 := by
  have hcount := h.generation _ _ (get?_eq_some_iff.mp hi)
  rw [timesFreed_cons, Event.frees_removed_self, ← hcount] at hbound
  have hnext : id.generation.toNat + 1 < 2 ^ 32 := hbound
  rw [UInt32.toNat_add, UInt32.toNat_one, Nat.mod_eq_of_lt hnext]

theorem unborn_removed (hlen : (a.without id).slots.length ≤ index) :
    timesFreed (.removed id i :: log) index = 0 := by
  obtain ⟨hthere, -, hlength, -⟩ := without_slots hi
  have hlt := (List.getElem?_eq_some_iff.mp hthere).1
  rw [timesFreed_cons_of_not (Event.frees_removed_of_ne (by omega)), h.unborn index (by omega)]

/-- The generation that ends is the last of its slot that was given out. -/
theorem issued_removed (hnext : (id.generation + 1).toNat = id.generation.toNat + 1) :
    x ∈ Arena.issued log ↔
      ∃ s, (a.without id).slots[x.slot.toNat]? = some s ∧ Slot.Issued s x.generation := by
  obtain ⟨hthere, hothers, -⟩ := without_slots hi
  rw [h.issued]
  by_cases hx : x.slot.toNat = id.slot.toNat
  · rw [hx, get?_eq_some_iff.mp hi, hthere]
    simp only [Option.some.injEq, exists_eq_left', Slot.Issued, hnext, ne_eq, reduceCtorEq,
      not_false_eq_true, and_true, not_true_eq_false, and_false, or_false, ← UInt32.toNat_inj]
    omega
  · rw [hothers _ hx]

/-- The slot that is freed was never freed later than now. -/
theorem recent_removed : (a.without id).free.Pairwise fun x y =>
    lastFreed y (.removed id i :: log) < lastFreed x (.removed id i :: log) := by
  obtain ⟨-, -, -, hfree⟩ := without_slots hi
  have hkept : ∀ index ∈ a.free,
      lastFreed index (.removed id i :: log) = lastFreed index log := by
    intro index hindex
    refine lastFreed_cons_of_not (Event.frees_removed_of_ne ?_)
    rintro rfl
    exact h.not_mem_free hi hindex
  rw [hfree, List.pairwise_cons]
  constructor
  · intro index hindex
    rw [hkept index hindex, lastFreed, if_pos Event.frees_removed_self]
    exact Nat.lt_succ_of_le lastFreed_le_length
  · refine h.recent.imp_of_mem fun hx hy hlt => ?_
    rw [hkept _ hx, hkept _ hy]
    exact hlt

/-- **A removal** of what is there frees its slot, and takes the slot to its next generation as long
as there is one. -/
theorem removed (hbound : timesFreed (.removed id i :: log) id.slot.toNat < UInt32.size) :
    Ledger (a.without id) (.removed id i :: log) where
  stored := h.stored.without
  listed _ := h.listed_removed hi
  generation index s hs := by
    obtain ⟨hthere, hothers, -⟩ := without_slots hi
    by_cases hindex : index = id.slot.toNat
    · subst hindex
      rw [hthere] at hs
      cases hs
      rw [timesFreed_cons, Event.frees_removed_self,
        ← h.generation _ _ (get?_eq_some_iff.mp hi), h.toNat_next hi hbound]
      rfl
    · rw [hothers index hindex] at hs
      rw [timesFreed_cons_of_not (Event.frees_removed_of_ne hindex)]
      exact h.generation index s hs
  unborn _ := h.unborn_removed hi
  issued _ := by
    rw [issued_cons]
    exact h.issued_removed hi (h.toNat_next hi hbound)
  distinct := by
    rw [issued_cons]
    exact h.distinct
  found x j := by
    rw [get?_without, standing_cons]
    by_cases hx : x = id
    · subst hx
      simp [Event.Removes]
    · simp [hx, Ne.symm hx, Event.Removes, h.found]
  recent := h.recent_removed hi
  counted := (h.toCounted.without id).exists_handles

end Removal

/-! ### Every call -/

/-- **One call** keeps the arena and its log together. -/
theorem answer (h : Ledger a log) (c : Call β)
    (hbound : ∀ index, timesFreed ((a.answer c).1 :: log) index < UInt32.size) :
    Ledger (a.answer c).2 ((a.answer c).1 :: log) := by
  cases c with
  | insert i =>
    cases hins : a.insert i with
    | error err =>
      rw [answer_insert_error hins]
      exact h.refused err
    | ok r =>
      obtain ⟨id, b⟩ := r
      rw [answer_insert_ok hins]
      exact h.inserted hins
  | remove id =>
    cases hi : a.get? id with
    | none =>
      rw [answer_remove_none hi]
      exact h.missed hi
    | some i =>
      rw [answer_remove_some hi] at hbound ⊢
      exact h.removed hi (hbound _)

/-- **An arena and its log go together after every history.** -/
theorem after (calls : List (Call β))
    (hbound : ∀ index, timesFreed (Arena.after calls).2 index < UInt32.size) :
    Ledger (Arena.after calls).1 (Arena.after calls).2 := by
  induction calls with
  | nil => exact .empty
  | cons c calls ih =>
    have hbefore : ∀ index, timesFreed (Arena.after calls).2 index < UInt32.size :=
      fun index => Nat.lt_of_le_of_lt timesFreed_le_cons (hbound index)
    exact (ih hbefore).answer c hbound

/-- An arena that goes together with its log is as the log says. -/
theorem kept (h : Ledger a log) : Kept a log where
  distinct := h.distinct
  found := h.found
  removed id i hs := ⟨_, answer_remove_some ((h.found id i).mpr hs)⟩
  missed id hnone := by
    refine answer_remove_none (Option.eq_none_iff_forall_ne_some.mpr fun i hi => ?_)
    exact hnone i ((h.found id i).mp hi)
  free := ⟨h.stored.nodup, fun index => ⟨h.stored.vacant index, h.listed index⟩⟩
  reused := by
    rintro i ⟨index, hvacant⟩
    have hmem := h.listed index hvacant
    cases hfree : a.free with
    | nil =>
      rw [hfree] at hmem
      cases hmem
    | cons first rest =>
      obtain ⟨id, b, hins⟩ := exists_insert_of_free i hfree
      obtain ⟨-, -, -, ⟨hhead, hthere⟩ | ⟨hnil, -⟩⟩ := insert_slots h.stored hins
      · refine ⟨id, b, answer_insert_ok hins, ⟨_, hthere⟩, ?_⟩
        intro k hk hne
        have hrecent := h.recent
        have hkfree := h.listed k hk
        rw [hhead] at hrecent hkfree
        exact (List.pairwise_cons.mp hrecent).1 k ((List.mem_cons.mp hkfree).resolve_left hne)
      · rw [hfree] at hnil
        cases hnil
  counted := h.counted

end Ledger

/-- **The arena is as its log says** after every history in which no slot is freed as often as there
are generations. -/
theorem kept_after (calls : List (Call β))
    (hbound : ∀ index, timesFreed (after calls).2 index < UInt32.size) :
    Kept (after calls).1 (after calls).2 :=
  (Ledger.after calls hbound).kept

/-- Two instances are inserted and removed, the first one twice.  A third one then takes the place
of the second, whose handle is removed once more.  The last call stands first. -/
def replacement : List (Call Unit) :=
  let named (name : String) : Instance Unit :=
    { type := ⟨0⟩, father := none, localName := name, order := 0 }
  [.remove ⟨1, 0⟩, .insert (named "table"), .remove ⟨0, 0⟩, .remove ⟨1, 0⟩, .remove ⟨0, 0⟩,
    .insert (named "stool"), .insert (named "chair")]

/-- The third instance is there although the handle of the second was removed again, and the place
of the first is vacant. -/
theorem kept_after_replacement :
    issued (after replacement).2 = [⟨1, 1⟩, ⟨1, 0⟩, ⟨0, 0⟩] ∧
      ((after replacement).1.get? ⟨1, 1⟩).map (·.localName) = some "table" ∧
      (∀ index, timesFreed (after replacement).2 index < UInt32.size) ∧
      Kept (after replacement).1 (after replacement).2 := by
  have hbound : ∀ index, timesFreed (after replacement).2 index < UInt32.size :=
    fun index => Nat.lt_of_le_of_lt timesFreed_le_length (by decide +kernel)
  exact ⟨by decide +kernel, by decide +kernel, hbound, kept_after replacement hbound⟩

end Arena

end ProductModel
