import ProductModel.Proofs.FirstOccurrences
import ProductModel.Symbol

/-!
# The numbers of symbols

A table of symbols answers calls of three kinds: a label is interned, a label is looked up, or the
label of a number is asked for.  The log of its answers is the record that the table is compared
with (`SymbolTable.Numbered`):

* two labels are interned under the same number just when they are the same;
* the numbers are given out from one on, one for each new label, and the table counts them;
* a number keeps its label, whatever is called later, and a label its number;
* a label is found just when it was interned, and a number that was not given out shows as such.

A table has numbers for less than `2 ^ 64` labels, so all of this is about histories in which not
more labels are interned.

## Design

The table keeps its maps and its count apart.  `SymbolTable.Lists` says that all three stand for one
list of labels, in which each label has its place as its number.  A label that is interned is in the
list already (`Lists.intern_of_mem`) or comes to its end (`Lists.intern_of_not_mem`), and by
induction the list is that of the labels in the order in which they first appear (`Ledger.after`).
-/

namespace ProductModel

namespace SymbolTable

/-- **A call** on a table of symbols. -/
inductive Call where
  | intern (label : String)
  | lookup (label : String)
  | label (id : Nat)
  deriving DecidableEq, Repr

/-- **What a call came to.** -/
inductive Event where
  | interned (label : String) (id : Nat)
  | found (label : String) (id : Option Nat)
  | labelled (id : Nat) (label : String)
  deriving DecidableEq, Repr

/-- The answer of a table to a call, and the table afterwards. -/
def answer (t : SymbolTable) : Call → Event × SymbolTable
  | .intern label => (.interned label (t.intern label).1, (t.intern label).2)
  | .lookup label => (.found label (t.lookup label), t)
  | .label id => (.labelled id (t.label id), t)

/-- The table after one more call, and the log with its answer. -/
def extend (record : SymbolTable × List Event) (c : Call) : SymbolTable × List Event :=
  ((record.1.answer c).2, record.2 ++ [(record.1.answer c).1])

/-- **A history of calls** on a table without symbols: the table after them, and the log of their
answers. -/
def after (calls : List Call) : SymbolTable × List Event := calls.foldl extend (empty, [])

/-- The label that a call interns. -/
def Call.interned? : Call → Option String
  | .intern text => some text
  | _ => none

/-- The label that was interned, and its number. -/
def Event.issue? : Event → Option (String × Nat)
  | .interned text id => some (text, id)
  | _ => none

/-- The labels that are interned, in the order in which they first appear. -/
def newLabels (calls : List Call) : List String := (calls.filterMap (·.interned?)).eraseDups

/-- The labels that were interned and their numbers, in the order in which they first appear. -/
def entries (log : List Event) : List (String × Nat) := (log.filterMap (·.issue?)).eraseDups

/-- **A table that is as its log says.** -/
structure Numbered (calls : List Call) (t : SymbolTable) (log : List Event) : Prop where
  /-- labels have the same number just when they are the same -/
  distinct : ∀ {a b m n}, .interned a m ∈ log → .interned b n ∈ log → (m = n ↔ a = b)
  inOrder : (entries log).map (·.1) = newLabels calls
  /-- numbers come from one on, without gaps, and the last one is the number of symbols -/
  numbers : (entries log).map (·.2) = List.range' 1 t.size
  /-- a number that was ever given out still has the label that it was given out for -/
  kept : ∀ {label id}, .interned label id ∈ log → t.label id = label
  /-- a label is found under the number that it was interned under -/
  found_iff : ∀ label id, t.lookup label = some id ↔ .interned label id ∈ log
  known_iff : ∀ label, (t.lookup label).isSome = true ↔ .intern label ∈ calls
  /-- looking up changes nothing -/
  unchanged : ∀ label, (t.answer (.lookup label)).2 = t
  foreign : ∀ id, (∀ label, .interned label id ∉ log) → t.label id = "sym:" ++ toString id

/-! ## Interning -/

section Interning

variable {t : SymbolTable} {label : String} {id : Nat}

theorem intern_of_lookup_eq_some (h : t.lookup label = some id) : t.intern label = (id, t) := by
  rw [intern, h]

theorem intern_of_lookup_eq_none (h : t.lookup label = none) :
    t.intern label = (t.allocator.nextId.1,
      { labels := t.labels.insert t.allocator.nextId.1 label
        ids := t.ids.insert label t.allocator.nextId.1
        allocator := t.allocator.nextId.2 }) := by
  have hids : t.ids.get? label = none := h
  simp only [intern, h, enter, hids]

end Interning

/-! ## Histories -/

section History

variable {calls : List Call} {c : Call} {log : List Event} {e : Event} {label : String} {id : Nat}

theorem after_concat : after (calls ++ [c]) = extend (after calls) c := by
  unfold after
  rw [List.foldl_append]
  rfl

theorem interned?_eq_some : c.interned? = some label ↔ c = .intern label := by
  cases c with
  | intern text => simp [Call.interned?]
  | _ => exact ⟨nofun, nofun⟩

theorem issue?_eq_some : e.issue? = some (label, id) ↔ e = .interned label id := by
  cases e with
  | interned text n => simp [Event.issue?]
  | _ => exact ⟨nofun, nofun⟩

theorem mem_newLabels : label ∈ newLabels calls ↔ .intern label ∈ calls := by
  simp only [newLabels, List.mem_eraseDups, List.mem_filterMap, interned?_eq_some, exists_eq_right]

theorem mem_entries : (label, id) ∈ entries log ↔ .interned label id ∈ log := by
  simp only [entries, List.mem_eraseDups, List.mem_filterMap, issue?_eq_some, exists_eq_right]

theorem newLabels_concat_intern :
    newLabels (calls ++ [.intern label]) =
      if label ∈ newLabels calls then newLabels calls else newLabels calls ++ [label] :=
  eraseDups_filterMap_concat_of_some rfl

theorem entries_concat_interned :
    entries (log ++ [.interned label id]) =
      if (label, id) ∈ entries log then entries log else entries log ++ [(label, id)] :=
  eraseDups_filterMap_concat_of_some rfl

/-- A call that does not intern brings no label. -/
theorem newLabels_concat_of_none (h : c.interned? = none) :
    newLabels (calls ++ [c]) = newLabels calls := eraseDups_filterMap_concat_of_none h

theorem entries_concat_of_none (h : e.issue? = none) : entries (log ++ [e]) = entries log :=
  eraseDups_filterMap_concat_of_none h

theorem length_newLabels_le_concat :
    (newLabels calls).length ≤ (newLabels (calls ++ [c])).length := by
  unfold newLabels
  rw [List.filterMap_append, List.eraseDups_append, List.length_append]
  exact Nat.le_add_right _ _

end History

/-! ## The list of labels -/

/-- **A list of labels that a table stands for**: the place of a label, counted from one on, is its
number. -/
structure Lists (t : SymbolTable) (ls : List String) : Prop where
  labels : ∀ {label id}, t.labels.get? id = some label ↔ (label, id) ∈ ls.zipIdx 1
  ids : ∀ {label id}, t.ids.get? label = some id ↔ (label, id) ∈ ls.zipIdx 1
  issued : t.allocator.issued.toNat = ls.length
  size : t.size = ls.length

namespace Lists

variable {t : SymbolTable} {ls : List String} {label : String} {id : Nat}

theorem empty : Lists empty [] where
  labels := ⟨nofun, nofun⟩
  ids := ⟨nofun, nofun⟩
  issued := rfl
  size := rfl

/-- A label at the end of the list has the next number. -/
theorem zipIdx_concat : (ls ++ [label]).zipIdx 1 = ls.zipIdx 1 ++ [(label, ls.length + 1)] := by
  rw [List.zipIdx_append, Nat.add_comm 1]
  rfl

/-- Every label of the list has a number. -/
theorem exists_id (h : label ∈ ls) : ∃ id, (label, id) ∈ ls.zipIdx 1 := by
  rw [← List.zipIdx_map_fst 1 ls] at h
  obtain ⟨⟨_, id⟩, hmem, rfl⟩ := List.mem_map.mp h
  exact ⟨id, hmem⟩

theorem isSome_lookup_iff (h : Lists t ls) : (t.lookup label).isSome = true ↔ label ∈ ls := by
  rw [Option.isSome_iff_exists]
  constructor
  · rintro ⟨id, hid⟩
    exact List.fst_mem_of_mem_zipIdx (h.ids.mp hid)
  · intro hmem
    obtain ⟨id, hid⟩ := exists_id hmem
    exact ⟨id, h.ids.mpr hid⟩

/-- Two labels of the list have the same number just when they are the same. -/
theorem id_eq_iff (h : Lists t ls) {a b : String} {m n : Nat} (ha : (a, m) ∈ ls.zipIdx 1)
    (hb : (b, n) ∈ ls.zipIdx 1) : m = n ↔ a = b := by
  constructor
  · rintro rfl
    have hlabels := (h.labels.mpr ha).symm.trans (h.labels.mpr hb)
    exact Option.some.inj hlabels
  · rintro rfl
    have hids := (h.ids.mpr ha).symm.trans (h.ids.mpr hb)
    exact Option.some.inj hids

/-- A label of the list is interned under its number, and the table stays as it is. -/
theorem intern_of_mem (h : Lists t ls) (hmem : label ∈ ls) :
    (label, (t.intern label).1) ∈ ls.zipIdx 1 ∧ (t.intern label).2 = t := by
  obtain ⟨id, hid⟩ := exists_id hmem
  rw [intern_of_lookup_eq_some (h.ids.mpr hid)]
  exact ⟨hid, rfl⟩

/-- The next number is the one behind the list. -/
theorem nextId_eq (h : Lists t ls) (hbound : ls.length + 1 < UInt64.size) :
    t.allocator.nextId.1 = ls.length + 1 ∧ t.allocator.nextId.2.issued.toNat = ls.length + 1 := by
  unfold SymbolAllocator.nextId SymbolAllocator.lastId
  constructor
  · show min (1 + t.allocator.issued.toNat) (UInt64.size - 1) = ls.length + 1
    rw [h.issued]
    omega
  · show (t.allocator.issued + 1).toNat = ls.length + 1
    rw [UInt64.toNat_add, h.issued]
    exact Nat.mod_eq_of_lt hbound

/-- A number behind the list has no label. -/
theorem get?_labels_eq_none (h : Lists t ls) (hid : ls.length < id) : t.labels.get? id = none := by
  refine Option.eq_none_iff_forall_ne_some.mpr fun label hlabel => ?_
  have hlt := List.snd_lt_of_mem_zipIdx (h.labels.mp hlabel)
  omega

/-- A label that is not in the list is interned under the next number, and comes to the end of the
list. -/
theorem intern_of_not_mem (h : Lists t ls) (hnew : label ∉ ls)
    (hbound : ls.length + 1 < UInt64.size) :
    (t.intern label).1 = ls.length + 1 ∧ Lists (t.intern label).2 (ls ++ [label]) := by
  obtain ⟨hnext, hissued⟩ := h.nextId_eq hbound
  have hlookup : t.lookup label = none := by
    rw [← Option.not_isSome_iff_eq_none]
    exact mt h.isSome_lookup_iff.mp hnew
  have hfree := h.get?_labels_eq_none (Nat.lt_succ_self ls.length)
  rw [intern_of_lookup_eq_none hlookup, hnext]
  refine ⟨rfl, ?_, ?_, ?_, ?_⟩
  · intro text id
    rw [zipIdx_concat, List.mem_append, List.mem_singleton, Prod.mk.injEq, ← h.labels,
      Association.get?_insert_of_none hfree, and_comm]
  · intro text id
    rw [zipIdx_concat, List.mem_append, List.mem_singleton, Prod.mk.injEq, ← h.ids,
      Association.get?_insert_of_none hlookup]
  · rw [List.length_append]
    exact hissued
  · rw [List.length_append]
    exact (Association.size_insert_of_none hfree label).trans (congrArg (· + 1) h.size)

end Lists

/-! ## The log -/

/-- **A table and its log**, as they come from a history: the table stands for the new labels, and
the log has given them out with their numbers. -/
structure Ledger (calls : List Call) (t : SymbolTable) (log : List Event) : Prop where
  lists : Lists t (newLabels calls)
  entries : entries log = (newLabels calls).zipIdx 1

namespace Ledger

variable {calls : List Call} {t : SymbolTable} {log : List Event} {c : Call} {label : String}
  {id : Nat}

theorem empty : Ledger [] empty [] := ⟨.empty, rfl⟩

theorem mem_zipIdx_iff (h : Ledger calls t log) :
    (label, id) ∈ (newLabels calls).zipIdx 1 ↔ .interned label id ∈ log := by
  rw [← h.entries]
  exact mem_entries

/-- **A label is interned**: it has its number, or it gets the next one. -/
theorem intern (h : Ledger calls t log)
    (hbound : (newLabels (calls ++ [.intern label])).length < UInt64.size) :
    Ledger (calls ++ [.intern label]) (t.intern label).2
      (log ++ [.interned label (t.intern label).1]) := by
  rw [newLabels_concat_intern] at hbound
  by_cases hmem : label ∈ newLabels calls
  · obtain ⟨hid, htable⟩ := h.lists.intern_of_mem hmem
    constructor
    · rw [newLabels_concat_intern, if_pos hmem, htable]
      exact h.lists
    · rw [newLabels_concat_intern, if_pos hmem, entries_concat_interned, h.entries, if_pos hid]
  · rw [if_neg hmem, List.length_append] at hbound
    obtain ⟨hid, hlists⟩ := h.lists.intern_of_not_mem hmem hbound
    constructor
    · rw [newLabels_concat_intern, if_neg hmem]
      exact hlists
    · have hnew : (label, (t.intern label).1) ∉ SymbolTable.entries log := fun hentry =>
        hmem (List.fst_mem_of_mem_zipIdx (h.entries ▸ hentry))
      rw [newLabels_concat_intern, if_neg hmem, entries_concat_interned, if_neg hnew, h.entries,
        hid, Lists.zipIdx_concat]

/-- **One more call** leaves a table and its log in order. -/
theorem extend (h : Ledger calls t log)
    (hbound : (newLabels (calls ++ [c])).length < UInt64.size) :
    Ledger (calls ++ [c]) (t.answer c).2 (log ++ [(t.answer c).1]) := by
  cases c with
  | intern label => exact h.intern hbound
  | lookup _ | label _ =>
    constructor
    · rw [newLabels_concat_of_none rfl]
      exact h.lists
    · rw [newLabels_concat_of_none rfl]
      exact (entries_concat_of_none rfl).trans h.entries

/-- **A table and its log go together** after every history. -/
theorem after (calls : List Call) (hbound : (newLabels calls).length < UInt64.size) :
    Ledger calls (SymbolTable.after calls).1 (SymbolTable.after calls).2 := by
  induction calls using List.reverseRecOn with
  | nil => exact .empty
  | append_singleton calls c ih =>
    rw [after_concat]
    exact (ih (Nat.lt_of_le_of_lt length_newLabels_le_concat hbound)).extend hbound

/-- A table that goes together with its log is as the log says. -/
theorem numbered (h : Ledger calls t log) : Numbered calls t log where
  distinct ha hb := h.lists.id_eq_iff (h.mem_zipIdx_iff.mpr ha) (h.mem_zipIdx_iff.mpr hb)
  inOrder := by rw [h.entries, List.zipIdx_map_fst]
  numbers := by rw [h.entries, List.zipIdx_map_snd, h.lists.size]
  kept hlog := by
    rw [SymbolTable.label, h.lists.labels.mpr (h.mem_zipIdx_iff.mpr hlog)]
    rfl
  found_iff _ _ := h.lists.ids.trans h.mem_zipIdx_iff
  known_iff _ := h.lists.isSome_lookup_iff.trans mem_newLabels
  unchanged _ := rfl
  foreign id hlog := by
    have hnone : t.labels.get? id = none := by
      refine Option.eq_none_iff_forall_ne_some.mpr fun label hlabel => ?_
      exact hlog label (h.mem_zipIdx_iff.mp (h.lists.labels.mp hlabel))
    rw [SymbolTable.label, hnone]
    rfl

end Ledger

/-- **Symbols are numbered** as the log says, after every history in which the labels are fewer than
the numbers of a word. -/
theorem symbols_numbered (calls : List Call) (hbound : (newLabels calls).length < UInt64.size) :
    Numbered calls (after calls).1 (after calls).2 :=
  (Ledger.after calls hbound).numbered

/-- Of four labels that are interned, two differ in one letter and two are the same. -/
def vocabulary : List Call :=
  [.intern "width", .lookup "depth", .intern "Width", .label 2, .intern "width", .lookup "width",
    .intern "depth", .label 7]

/-- The three labels have the numbers from one to three, and the seventh number is not given out. -/
theorem symbols_numbered_vocabulary :
    (after vocabulary).2 =
      [.interned "width" 1, .found "depth" none, .interned "Width" 2, .labelled 2 "Width",
        .interned "width" 1, .found "width" (some 1), .interned "depth" 3, .labelled 7 "sym:7"] ∧
      (newLabels vocabulary).length < UInt64.size ∧
      Numbered vocabulary (after vocabulary).1 (after vocabulary).2 := by
  have hbound : (newLabels vocabulary).length < UInt64.size := by decide
  exact ⟨by decide, hbound, symbols_numbered vocabulary hbound⟩

end SymbolTable

end ProductModel
