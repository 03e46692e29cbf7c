import Mathlib.Data.List.Sort
import ProductModel.Proofs.SameAsItself
import ProductModel.Proofs.StoredValues
import ProductModel.Proofs.ValidInstances

/-!
# The order of properties

Properties are declared, overwritten, removed, enabled and hidden in any order, and their keys are
listed by slot and, where slots agree, by declaration.  `PropertyTable.presented_in_order` says
after every sequence of changes what is listed and where: each declared key once, in an order that
the slots and the numbers of the declarations decide alone.

* A key that is declared without an explicit position comes last, and so does one that gives up its
  explicit position.  This alone needs a bound: no slot in use is the greatest word, for behind that
  one comes the least.
* A key that has no explicit position and gets none keeps its place.
* No change moves any other key.

## Design

Entries are numbered as they come in, and numbers are never used again, so there is only one way to
list them by slot and number (`PropertyEntry.listing_unique`).  Hence it is enough to show a listing
and to say that it is in order: what a change does to the listing is read off what it does to the
entries, and not off the sort.

Slots are words, and ordered as the numbers that they stand for.  Only `slot_lt_add_one` counts one
up.
-/

namespace ProductModel

/-! ## Slots -/

/-- The greater of two slots is one of them, and neither is behind it. -/
instance instLawfulOrderMaxInt32 : Std.LawfulOrderMax Int32 := by
  have max_eq (a b : Int32) : max a b = if a ≤ b then b else a := rfl
  refine .of_max_le_iff (fun a b c => ?_) fun a b => ?_
  · rw [max_eq]
    split
    · rename_i hab
      exact ⟨fun hbc => ⟨Int32.le_trans hab hbc, hbc⟩, And.right⟩
    · rename_i hab
      have hba : b ≤ a := (Int32.le_total a b).resolve_left hab
      exact ⟨fun hac => ⟨hac, Int32.le_trans hba hac⟩, And.left⟩
  · rw [max_eq]
    split
    · exact .inr rfl
    · exact .inl rfl

/-- **The next slot is behind all up to one that is not the greatest word.** -/
theorem slot_lt_add_one {greatest s : Int32} (hbound : greatest < Int32.maxValue)
    (hs : s ≤ greatest) : s < greatest + 1 := by
  rw [Int32.lt_iff_toInt_lt, Int32.toInt_maxValue] at hbound
  rw [Int32.le_iff_toInt_le] at hs
  have hleast := greatest.le_toInt
  have hnext : (greatest + 1).toInt = greatest.toInt + 1 := by
    rw [Int32.toInt_add, Int32.toInt_one]
    exact Int.bmod_eq_of_le (by omega) (by omega)
  rw [Int32.lt_iff_toInt_lt, hnext]
  omega

/-! ## Listings -/

namespace PropertyEntry

/-- **An entry comes before another** by its slot, or by its number at the same slot. -/
def Precedes (a b : PropertyEntry) : Prop :=
  a.slot < b.slot ∨ a.slot = b.slot ∧ a.sequence < b.sequence

/-- The comparison of entries by slot and number. -/
def notAfter (a b : PropertyEntry) : Bool :=
  a.slot < b.slot || a.slot = b.slot && a.sequence ≤ b.sequence

/-- The place of a key: its slot, and the number of its declaration. -/
def place (e : PropertyEntry) : Symbol × Int32 × Nat := (e.key, e.slot, e.sequence)

/-- Entries in order of declaration. -/
def Increasing (es : List PropertyEntry) : Prop := es.Pairwise fun a b => a.sequence < b.sequence

/-- **The entries as they are presented.** -/
def listing (es : List PropertyEntry) : List PropertyEntry :=
  es.mergeSort fun a b => a.slot ≤ b.slot

variable {es l : List PropertyEntry}

theorem notAfter_iff {a b : PropertyEntry} : notAfter a b = true ↔
    a.slot < b.slot ∨ a.slot = b.slot ∧ a.sequence ≤ b.sequence := by
  simp only [notAfter, Bool.or_eq_true, Bool.and_eq_true, decide_eq_true_eq]

theorem notAfter_trans (a b c : PropertyEntry) (hab : notAfter a b = true)
    (hbc : notAfter b c = true) : notAfter a c = true := by
  simp only [notAfter_iff, Int32.lt_iff_toInt_lt, ← Int32.toInt_inj] at hab hbc ⊢
  omega

theorem notAfter_total (a b : PropertyEntry) : (notAfter a b || notAfter b a) = true := by
  simp only [Bool.or_eq_true, notAfter_iff, Int32.lt_iff_toInt_lt, ← Int32.toInt_inj]
  omega

theorem slot_trans (a b c : PropertyEntry) (hab : decide (a.slot ≤ b.slot) = true)
    (hbc : decide (b.slot ≤ c.slot) = true) : decide (a.slot ≤ c.slot) = true := by
  simp only [decide_eq_true_eq] at hab hbc ⊢
  exact Int32.le_trans hab hbc

theorem slot_total (a b : PropertyEntry) :
    (decide (a.slot ≤ b.slot) || decide (b.slot ≤ a.slot)) = true := by
  simp only [Bool.or_eq_true, decide_eq_true_eq]
  exact Int32.le_total _ _

theorem listing_perm (es : List PropertyEntry) : (listing es).Perm es := List.mergeSort_perm _ _

/-- **Listed entries of one slot stay in order of declaration**, for the sort is stable. -/
theorem filter_slot_listing (es : List PropertyEntry) (s : Int32) :
    (listing es).filter (·.slot = s) = es.filter (·.slot = s) := by
  have hsub : (es.filter (·.slot = s)).Sublist (listing es) := by
    refine List.sublist_mergeSort slot_trans slot_total ?_ List.filter_sublist
    refine List.pairwise_of_forall_mem_list fun a ha b hb => ?_
    have ha := of_decide_eq_true (List.mem_filter.mp ha).2
    have hb := of_decide_eq_true (List.mem_filter.mp hb).2
    exact decide_eq_true (Int32.le_of_eq (ha.trans hb.symm))
  have hfiltered := hsub.filter (·.slot = s)
  rw [List.filter_filter, List.filter_congr fun e _ => Bool.and_self _] at hfiltered
  exact (hfiltered.eq_of_length ((listing_perm es).filter _).length_eq.symm).symm

/-- **A listing is in order.** -/
theorem precedes_listing (hes : Increasing es) : (listing es).Pairwise Precedes := by
  refine List.pairwise_iff_forall_sublist.mpr fun {a b} hab => ?_
  have hslot : a.slot ≤ b.slot := of_decide_eq_true <|
    List.pairwise_iff_forall_sublist.mp (List.pairwise_mergeSort slot_trans slot_total es) hab
  by_cases heq : a.slot = b.slot
  · -- Both are among the entries of one slot, which are in order of declaration.
    have hsame := hab.filter (·.slot = b.slot)
    have hboth : [a, b].filter (·.slot = b.slot) = [a, b] := by simp [heq]
    rw [filter_slot_listing, hboth] at hsame
    exact .inr ⟨heq, List.pairwise_iff_forall_sublist.mp hes (hsame.trans List.filter_sublist)⟩
  · exact .inl (Int32.lt_of_le_of_ne hslot heq)

/-- **There is one way to list entries in order.** -/
theorem listing_unique (hes : Increasing es) (hperm : l.Perm es) (hl : l.Pairwise Precedes) :
    listing es = l := by
  refine List.Perm.eq_of_pairwise (fun a b _ _ hab hba => ?_) (precedes_listing hes) hl
    ((listing_perm es).trans hperm.symm)
  simp only [Precedes, Int32.lt_iff_toInt_lt, ← Int32.toInt_inj] at hab hba
  omega

/-- Some of the entries are listed as they are among all. -/
theorem filter_listing (hes : Increasing es) (p : PropertyEntry → Bool) :
    (listing es).filter p = listing (es.filter p) := by
  refine (listing_unique (hes.filter p) ((listing_perm es).filter p) ?_).symm
  exact (precedes_listing hes).filter p

/-- **Entries are listed the same** in whatever order they are collected. -/
theorem sorted_eq_listing (hes : Increasing es) (hl : l.Perm es) :
    l.mergeSort notAfter = listing es := by
  have hperm : (l.mergeSort notAfter).Perm es := (List.mergeSort_perm _ _).trans hl
  refine (listing_unique hes hperm ?_).symm
  have hnodup : (l.mergeSort notAfter).Pairwise fun a b => a.sequence ≠ b.sequence :=
    hperm.symm.pairwise (hes.imp fun hab => Nat.ne_of_lt hab) fun {_ _} hne => Ne.symm hne
  refine (List.pairwise_mergeSort notAfter_trans notAfter_total l).imp₂ (fun a b hab hne => ?_)
    hnodup
  obtain hslot | ⟨hslot, hseq⟩ := notAfter_iff.mp hab
  · exact .inl hslot
  · exact .inr ⟨hslot, Nat.lt_of_le_of_ne hseq hne⟩

end PropertyEntry

/-! ## Changes of a table -/

/-- **A change of a table of properties.** -/
inductive TableChange where
  | setup (d : PropertyDef)
  | remove (key : Symbol)
  | setState (key : Symbol) (state : PropertyState)

/-- The key that a change concerns. -/
def TableChange.key : TableChange → Symbol
  | .setup d => d.key
  | .remove key => key
  | .setState key _ => key

namespace PropertyTable

open PropertyEntry (listing Precedes Increasing notAfter listing_unique filter_listing
  precedes_listing listing_perm sorted_eq_listing)

/-- A table after a change. -/
def changed (t : PropertyTable) : TableChange → PropertyTable
  | .setup d => (t.setup d).2
  | .remove key => (t.remove key).2
  | .setState key state => t.setState key state

/-- **A table after a sequence of changes**, the last one first. -/
def after : List TableChange → PropertyTable
  | [] => empty
  | c :: changes => (after changes).changed c

/-- **The definition that was last set up** under a key and not removed since, with the state that
it was last given. -/
def lastSetUp : List TableChange → Symbol → Option PropertyDef
  | [], _ => none
  | .setup d :: changes, key => if key = d.key then some d else lastSetUp changes key
  | .remove removed :: changes, key => if key = removed then none else lastSetUp changes key
  | .setState other state :: changes, key =>
    (lastSetUp changes key).map fun d => if key = other then { d with state } else d

/-- **What a change of a table preserves.** -/
structure Numbered (t : PropertyTable) : Prop where
  increasing : Increasing t.entries
  declared : ∀ e ∈ t.entries, e.sequence < t.declared
  keys : (t.entries.map (·.key)).Nodup
  /-- an explicit position is the slot -/
  explicit : ∀ e ∈ t.entries, ∀ s, e.definition.position.slot? = some s → e.slot = s

variable {t t' : PropertyTable} {key : Symbol} {d old : PropertyDef}

/-! ### The invariant -/

theorem keys_eq_listing (t : PropertyTable) : t.keys = (listing t.entries).map (·.key) := rfl

theorem find?_eq_none : t.find? key = none ↔ ∀ e ∈ t.entries, e.key ≠ key := by
  simp [find?, List.find?_eq_none]

theorem mem_of_find? {e : PropertyEntry} (h : t.find? key = some e) :
    e ∈ t.entries ∧ e.key = key :=
  ⟨List.mem_of_find?_eq_some h, by simpa using List.find?_some h⟩

theorem setup_of_new (hnew : t.find? d.key = none) : t.setup d =
    (true, { entries := t.entries ++ [⟨d, d.position.slot?.getD t.nextSlot, t.declared⟩]
             declared := t.declared + 1 }) := by
  unfold setup
  rw [hnew]

theorem setup_of_same {e : PropertyEntry} (hold : t.find? d.key = some e)
    (hsame : (e.definition == d) = true) : t.setup d = (false, t) := by
  unfold setup
  rw [hold]
  exact if_pos hsame

theorem setup_of_other {e : PropertyEntry} (hold : t.find? d.key = some e)
    (hother : (e.definition == d) = false) : t.setup d =
      (true, t.modify d.key fun x => { x with definition := d, slot := t.slotAfter e d }) := by
  unfold setup
  rw [hold]
  exact if_neg (by rw [hother]; decide)

/-- The next slot is behind all others, unless one of them is the greatest word. -/
theorem slot_lt_nextSlot (hbound : ∀ e ∈ t.entries, e.slot < Int32.maxValue) {e : PropertyEntry}
    (he : e ∈ t.entries) : e.slot < t.nextSlot := by
  have hmem : e.slot ∈ t.entries.map (·.slot) := List.mem_map_of_mem he
  unfold nextSlot
  split
  · rename_i greatest hmax
    obtain ⟨hgreatest, hall⟩ := List.max?_eq_some_iff.mp hmax
    obtain ⟨x, hx, rfl⟩ := List.mem_map.mp hgreatest
    exact slot_lt_add_one (hbound x hx) (hall _ hmem)
  · rename_i hnone
    rw [List.max?_eq_none_iff.mp hnone] at hmem
    cases hmem

namespace Numbered

theorem empty : PropertyTable.empty.Numbered where
  increasing := List.Pairwise.nil
  declared _ he := absurd he List.not_mem_nil
  keys := List.nodup_nil
  explicit _ he := absurd he List.not_mem_nil

/-- An entry is changed that keeps its number and its key. -/
theorem modify (h : t.Numbered) {f : PropertyEntry → PropertyEntry}
    (hsequence : ∀ e, (f e).sequence = e.sequence) (hkey : ∀ e, e.key = key → (f e).key = key)
    (hexplicit : ∀ e ∈ t.entries, e.key = key → ∀ s,
      (f e).definition.position.slot? = some s → (f e).slot = s) : (t.modify key f).Numbered := by
  have hseq : ∀ e : PropertyEntry, (if e.key == key then f e else e).sequence = e.sequence := by
    intro e
    split
    · exact hsequence e
    · rfl
  have hkeys : (t.modify key f).entries.map (·.key) = t.entries.map (·.key) := by
    refine (List.map_map ..).trans (List.map_congr_left fun e _ => ?_)
    dsimp only [Function.comp]
    split
    · rename_i hsame
      exact (hkey e (beq_iff_eq.mp hsame)).trans (beq_iff_eq.mp hsame).symm
    · rfl
  exact {
    increasing := by
      refine List.pairwise_map.mpr (h.increasing.imp fun {a b} hab => ?_)
      rwa [hseq, hseq]
    declared := by
      intro e he
      obtain ⟨x, hx, rfl⟩ := List.mem_map.mp he
      rw [hseq]
      exact h.declared x hx
    keys := by
      rw [hkeys]
      exact h.keys
    explicit := by
      intro e he s hs
      obtain ⟨x, hx, rfl⟩ := List.mem_map.mp he
      split at hs
      · rename_i hsame
        rw [if_pos hsame]
        exact hexplicit x hx (beq_iff_eq.mp hsame) s hs
      · rename_i hother
        rw [if_neg hother]
        exact h.explicit x hx s hs }

/-- An entry is added with a new key and the next number. -/
theorem append (h : t.Numbered) {e : PropertyEntry} (hnew : t.find? e.key = none)
    (hnumber : e.sequence = t.declared)
    (hexplicit : ∀ s, e.definition.position.slot? = some s → e.slot = s) :
    ({ entries := t.entries ++ [e], declared := t.declared + 1 } : PropertyTable).Numbered where
  increasing := by
    refine List.pairwise_append.mpr ⟨h.increasing, List.pairwise_singleton _ _, ?_⟩
    intro a ha b hb
    rw [List.mem_singleton.mp hb, hnumber]
    exact h.declared a ha
  declared x hx := by
    rcases List.mem_append.mp hx with hx | hx
    · exact Nat.lt_succ_of_lt (h.declared x hx)
    · rw [List.mem_singleton.mp hx, hnumber]
      exact Nat.lt_succ_self _
  keys := by
    rw [List.map_append]
    refine List.nodup_append.mpr ⟨h.keys, List.nodup_singleton _, ?_⟩
    intro a ha b hb
    obtain ⟨x, hx, rfl⟩ := List.mem_map.mp ha
    rw [List.map_singleton, List.mem_singleton] at hb
    rw [hb]
    exact find?_eq_none.mp hnew x hx
  explicit x hx := by
    rcases List.mem_append.mp hx with hx | hx
    · exact h.explicit x hx
    · rwa [List.mem_singleton.mp hx]

theorem setup (h : t.Numbered) (d : PropertyDef) : (t.setup d).2.Numbered := by
  cases hold : t.find? d.key with
  | none =>
    rw [setup_of_new hold]
    refine h.append hold rfl fun s hs => ?_
    dsimp only at hs ⊢
    rw [hs]
    rfl
  | some e =>
    cases hsame : e.definition == d with
    | true =>
      rw [setup_of_same hold hsame]
      exact h
    | false =>
      rw [setup_of_other hold hsame]
      refine h.modify (fun _ => rfl) (fun _ _ => rfl) fun _ _ _ s hs => ?_
      dsimp only at hs ⊢
      rw [slotAfter, hs]

/-- **What changes of a table preserve, each of them does.** -/
theorem changed (h : t.Numbered) (c : TableChange) : (t.changed c).Numbered := by
  cases c with
  | setup d => exact h.setup d
  | remove key =>
    exact ⟨h.increasing.filter _, fun e he => h.declared e (List.mem_of_mem_filter he),
      h.keys.sublist (List.filter_sublist.map _),
      fun e he => h.explicit e (List.mem_of_mem_filter he)⟩
  | setState key state =>
    exact h.modify (fun _ => rfl) (fun _ hkey => hkey) fun e he _ => h.explicit e he

end Numbered

theorem numbered_after (changes : List TableChange) : (after changes).Numbered := by
  induction changes with
  | nil => exact .empty
  | cons c changes ih => exact ih.changed c

/-! ### What is listed -/

/-- The other entries are left alone. -/
theorem filter_modify {f : PropertyEntry → PropertyEntry}
    (hkey : ∀ e, e.key = key → (f e).key = key) :
    (t.modify key f).entries.filter (·.key ≠ key) = t.entries.filter (·.key ≠ key) := by
  show (t.entries.map _).filter _ = _
  induction t.entries with
  | nil => rfl
  | cons e es ih =>
    rw [List.map_cons]
    by_cases hsame : e.key = key
    · rw [if_pos (beq_iff_eq.mpr hsame), List.filter_cons_of_neg (by simp [hkey e hsame]), ih,
        List.filter_cons_of_neg (by simp [hsame])]
    · rw [if_neg (by simpa using hsame), List.filter_cons_of_pos (by simpa using hsame), ih,
        List.filter_cons_of_pos (by simpa using hsame)]

theorem filter_changed (t : PropertyTable) (c : TableChange) :
    (t.changed c).entries.filter (·.key ≠ c.key) = t.entries.filter (·.key ≠ c.key) := by
  cases c with
  | setup d =>
    show (t.setup d).2.entries.filter (·.key ≠ d.key) = t.entries.filter (·.key ≠ d.key)
    cases hold : t.find? d.key with
    | none =>
      rw [setup_of_new hold]
      show (t.entries ++ [_]).filter _ = _
      rw [List.filter_append, List.filter_cons_of_neg (by simp [PropertyEntry.key]),
        List.filter_nil, List.append_nil]
    | some e =>
      cases hsame : e.definition == d with
      | true => rw [setup_of_same hold hsame]
      | false =>
        rw [setup_of_other hold hsame]
        exact filter_modify fun _ _ => rfl
  | remove key =>
    show (t.entries.filter _).filter _ = _
    rw [List.filter_filter]
    refine List.filter_congr fun e _ => ?_
    by_cases he : e.key = key <;> simp [TableChange.key, he]
  | setState key state => exact filter_modify fun _ hkey => hkey

/-- The other keys are listed as the other entries are. -/
theorem Numbered.filter_keys (h : t.Numbered) (key : Symbol) : t.keys.filter (· ≠ key) =
    (listing (t.entries.filter (·.key ≠ key))).map (·.key) := by
  rw [← filter_listing h.increasing, keys_eq_listing, List.filter_map]
  rfl

/-- **A change moves no other key.** -/
theorem Numbered.filter_keys_changed (h : t.Numbered) (c : TableChange) :
    (t.changed c).keys.filter (· ≠ c.key) = t.keys.filter (· ≠ c.key) := by
  rw [(h.changed c).filter_keys, h.filter_keys, filter_changed]

/-- There is one entry of a key. -/
theorem filter_key_eq {es : List PropertyEntry} (hkeys : (es.map (·.key)).Nodup)
    {e : PropertyEntry} (he : e ∈ es) : es.filter (fun x => !decide (x.key ≠ e.key)) = [e] := by
  induction es with
  | nil => cases he
  | cons x es ih =>
    obtain ⟨hx, hkeys⟩ := List.nodup_cons.mp hkeys
    rcases List.mem_cons.mp he with rfl | he
    · have hnone : es.filter (fun x => !decide (x.key ≠ e.key)) = [] := by
        refine List.filter_eq_nil_iff.mpr fun y hy hsame => hx ?_
        exact List.mem_map.mpr ⟨y, hy, by simpa using hsame⟩
      rw [List.filter_cons_of_pos (by simp), hnone]
    · have hne : x.key ≠ e.key := fun hsame => hx (List.mem_map.mpr ⟨e, he, hsame.symm⟩)
      rw [List.filter_cons_of_neg (by simpa using hne), ih hkeys he]

/-- **A key whose slot is behind all others is listed last.** -/
theorem Numbered.keys_eq_append (h : t.Numbered) {e : PropertyEntry} (he : e ∈ t.entries)
    (hslot : ∀ x ∈ t.entries, x.key ≠ e.key → x.slot < e.slot) :
    t.keys = t.keys.filter (· ≠ e.key) ++ [e.key] := by
  have hlast : listing t.entries = listing (t.entries.filter (·.key ≠ e.key)) ++ [e] := by
    refine listing_unique h.increasing ?_ ?_
    · refine ((listing_perm _).append_right _).trans ?_
      rw [← filter_key_eq h.keys he]
      exact List.filter_append_perm _ _
    · refine List.pairwise_append.mpr
        ⟨precedes_listing (h.increasing.filter _), List.pairwise_singleton _ _, ?_⟩
      intro x hx y hy
      obtain ⟨hx, hne⟩ := List.mem_filter.mp ((listing_perm _).mem_iff.mp hx)
      rw [List.mem_singleton.mp hy]
      exact .inl (hslot x hx (of_decide_eq_true hne))
  rw [h.filter_keys, keys_eq_listing, hlast, List.map_append, List.map_singleton]

/-- **Entries at the same places are listed the same.** -/
theorem keys_eq_of_places (h : t'.entries.map (·.place) = t.entries.map (·.place)) :
    t'.keys = t.keys := by
  have hkeys : ∀ t : PropertyTable, t.keys =
      ((t.entries.map (·.place)).mergeSort fun p q => p.2.1 ≤ q.2.1).map (·.1) := by
    intro t
    rw [← List.map_mergeSort (r := fun a b : PropertyEntry => a.slot ≤ b.slot) (fun _ _ _ _ => rfl),
      List.map_map]
    rfl
  rw [hkeys, hkeys, h]

/-- An entry that keeps its place. -/
theorem places_modify {f : PropertyEntry → PropertyEntry}
    (hplace : ∀ e ∈ t.entries, e.key = key → (f e).place = e.place) :
    (t.modify key f).entries.map (·.place) = t.entries.map (·.place) := by
  refine (List.map_map ..).trans (List.map_congr_left fun e he => ?_)
  dsimp only [Function.comp]
  split
  · rename_i hsame
    exact hplace e he (beq_iff_eq.mp hsame)
  · rfl

theorem slot?_of_implicit (hd : d.position = .implicit) : d.position.slot? = none := by
  rw [hd]
  rfl

/-- **A key without an explicit position that gets none keeps its place.** -/
theorem Numbered.places_setup (h : t.Numbered) (hold : t.get? d.key = some old)
    (hwas : old.position = .implicit) (hd : d.position = .implicit) :
    (t.setup d).2.entries.map (·.place) = t.entries.map (·.place) := by
  obtain ⟨e, he, rfl⟩ := Option.map_eq_some_iff.mp hold
  cases hsame : e.definition == d with
  | true => rw [setup_of_same he hsame]
  | false =>
    rw [setup_of_other he hsame]
    refine places_modify fun x hx hkey => ?_
    obtain ⟨hmem, hsamekey⟩ := mem_of_find? he
    obtain rfl : x = e := List.inj_on_of_nodup_map h.keys hx hmem (hkey.trans hsamekey.symm)
    show (d.key, t.slotAfter x d, x.sequence) = (x.key, x.slot, x.sequence)
    rw [slotAfter, slot?_of_implicit hd, slot?_of_implicit hwas, hkey]
    rfl

theorem position_eq_of_same (h : (old == d) = true) : old.position = d.position := by
  have hsame : old.same d = true := h
  simp only [PropertyDef.same, Bool.and_eq_true, beq_iff_eq] at hsame
  exact hsame.1.2

/-- **A key without an explicit position comes last** if it is new or had one. -/
theorem Numbered.keys_setup (h : t.Numbered)
    (hbound : ∀ e ∈ t.entries, e.slot < Int32.maxValue) (hd : d.position = .implicit)
    (hwas : ∀ old, t.get? d.key = some old → old.position ≠ .implicit) :
    (t.setup d).2.keys = t.keys.filter (· ≠ d.key) ++ [d.key] := by
  have hafter : (t.setup d).2.Numbered := h.changed (.setup d)
  -- The table is numbered again, so the key with the greatest slot is listed last.
  suffices hlast : ∃ e ∈ (t.setup d).2.entries, e.key = d.key ∧
      ∀ x ∈ (t.setup d).2.entries, x.key ≠ d.key → x.slot < e.slot by
    obtain ⟨e, he, hkey, hslot⟩ := hlast
    have hkeys := hafter.keys_eq_append he (by rwa [hkey])
    rw [hkey] at hkeys
    rw [hkeys]
    exact congrArg (· ++ [d.key]) (h.filter_keys_changed (.setup d))
  cases hold : t.find? d.key with
  | none =>
    rw [setup_of_new hold]
    refine ⟨_, List.mem_append_right _ (List.mem_singleton.mpr rfl), rfl, fun x hx hne => ?_⟩
    dsimp only
    rw [slot?_of_implicit hd]
    rcases List.mem_append.mp hx with hx | hx
    · exact slot_lt_nextSlot hbound hx
    · exact absurd (by rw [List.mem_singleton.mp hx]; rfl) hne
  | some e =>
    have hexplicit : e.definition.position ≠ .implicit := hwas _ (by rw [get?, hold]; rfl)
    -- It had another position, so it is set up anew and gets the next slot.
    have hother : (e.definition == d) = false := by
      refine Bool.eq_false_iff.mpr fun hsame => hexplicit ?_
      rw [position_eq_of_same hsame, hd]
    have hslot : t.slotAfter e d = t.nextSlot := by
      unfold slotAfter
      rw [slot?_of_implicit hd]
      cases hposition : e.definition.position with
      | explicit s => rfl
      | implicit => exact absurd hposition hexplicit
    obtain ⟨hmem, hkey⟩ := mem_of_find? hold
    rw [setup_of_other hold hother, hslot]
    refine ⟨_, List.mem_map.mpr ⟨e, hmem, if_pos (beq_iff_eq.mpr hkey)⟩, rfl, fun x hx hne => ?_⟩
    obtain ⟨y, hy, rfl⟩ := List.mem_map.mp hx
    have hy' : ¬ (y.key == d.key) = true := fun hsame => hne (by rw [if_pos hsame]; rfl)
    rw [if_neg hy']
    exact slot_lt_nextSlot hbound hy

/-! ### What is stored -/

theorem find?_setup_of_other {e : PropertyEntry} (hold : t.find? d.key = some e)
    (hother : (e.definition == d) = false) (key : Symbol) :
    (t.setup d).2.find? key = (t.find? key).map fun x =>
      if key = d.key then { x with definition := d, slot := t.slotAfter e d } else x := by
  rw [setup_of_other hold hother]
  exact t.find?_modify d.key
    (f := fun x => { x with definition := d, slot := t.slotAfter e d }) (fun _ _ => rfl) key

theorem get?_setup_of_ne (d : PropertyDef) (hkey : key ≠ d.key) :
    (t.setup d).2.get? key = t.get? key := by
  cases hold : t.find? d.key with
  | none =>
    have hnew : t.contains d.key = false := get?_eq_none_iff.mp (by rw [get?, hold]; rfl)
    rw [get?_setup_of_new hnew, if_neg hkey]
  | some e =>
    cases hsame : e.definition == d with
    | true => rw [setup_of_same hold hsame]
    | false =>
      unfold get?
      rw [find?_setup_of_other hold hsame]
      simp only [if_neg hkey, Option.map_id']

/-- What is stored after a definition was set up is the same as that one. -/
theorem exists_get?_setup (t : PropertyTable) (hself : (d == d) = true) :
    ∃ stored, (t.setup d).2.get? d.key = some stored ∧ (stored == d) = true := by
  cases hold : t.find? d.key with
  | none =>
    have hnew : t.contains d.key = false := get?_eq_none_iff.mp (by rw [get?, hold]; rfl)
    exact ⟨d, by rw [get?_setup_of_new hnew, if_pos rfl], hself⟩
  | some e =>
    cases hsame : e.definition == d with
    | true =>
      rw [setup_of_same hold hsame]
      exact ⟨e.definition, by rw [get?, hold]; rfl, hsame⟩
    | false =>
      refine ⟨d, ?_, hself⟩
      unfold get?
      rw [find?_setup_of_other hold hsame, hold]
      simp

/-- **What setting a definition up answers.** -/
theorem setup_eq_false_iff :
    (t.setup d).1 = false ↔ ∃ old, t.get? d.key = some old ∧ (old == d) = true := by
  unfold get?
  cases hold : t.find? d.key with
  | none =>
    rw [setup_of_new hold]
    simp
  | some e =>
    cases hsame : e.definition == d with
    | true =>
      rw [setup_of_same hold hsame]
      simp [hsame]
    | false =>
      rw [setup_of_other hold hsame]
      simp [hsame]

theorem setup_of_eq_false (h : (t.setup d).1 = false) : (t.setup d).2 = t := by
  obtain ⟨old, hold, hsame⟩ := setup_eq_false_iff.mp h
  obtain ⟨e, he, rfl⟩ := Option.map_eq_some_iff.mp hold
  rw [setup_of_same he hsame]

/-- **What is found under a key** and what is expected there: nothing, or the same definition. -/
def Holds (t : PropertyTable) (expected : Symbol → Option PropertyDef) : Prop :=
  ∀ key, Option.Rel (fun stored d => (stored == d) = true) (t.get? key) (expected key)

/-- Definitions that are the same stay so with the same state. -/
theorem same_withState (h : (old == d) = true) (state : PropertyState) :
    ({ old with state } == { d with state }) = true := by
  have hsame : old.same d = true := h
  show PropertyDef.same _ _ = true
  simp only [PropertyDef.same, Bool.and_eq_true] at hsame ⊢
  exact ⟨hsame.1, beq_self_eq_true state⟩

theorem holds_after (changes : List TableChange)
    (hnan : ∀ d, .setup d ∈ changes → HasNaN d.floats = false) :
    (after changes).Holds (lastSetUp changes) := by
  induction changes with
  | nil => exact fun _ => .none
  | cons c changes ih =>
    have ih := ih fun d hd => hnan d (List.mem_cons_of_mem _ hd)
    intro key
    cases c with
    | setup d =>
      -- A definition that is not equal to itself would be set up again and again.
      have hself : (d == d) = true := by
        rw [PropertyDef.same_self, hnan d List.mem_cons_self]
        rfl
      show Option.Rel _ (((after changes).setup d).2.get? key)
        (if key = d.key then some d else lastSetUp changes key)
      by_cases hkey : key = d.key
      · obtain ⟨stored, hstored, hsame⟩ := (after changes).exists_get?_setup hself
        rw [hkey, if_pos rfl, hstored]
        exact .some hsame
      · rw [if_neg hkey, get?_setup_of_ne d hkey]
        exact ih key
    | remove removed =>
      show Option.Rel _ (((after changes).remove removed).2.get? key)
        (if key = removed then none else lastSetUp changes key)
      rw [get?_remove]
      split
      · exact .none
      · exact ih key
    | setState other state =>
      show Option.Rel _ (((after changes).setState other state).get? key)
        ((lastSetUp changes key).map fun d => if key = other then { d with state } else d)
      rw [get?_setState]
      have hrel := ih key
      generalize (after changes).get? key = stored, lastSetUp changes key = expected at hrel ⊢
      cases hrel with
      | none => exact .none
      | some hsame =>
        refine .some ?_
        dsimp only
        split
        · exact same_withState hsame state
        · exact hsame

/-! ### The order -/

/-- **A table after a sequence of changes.** -/
structure InOrder (changes : List TableChange) (t : PropertyTable) : Prop where
  /-- each declared key is listed once -/
  nodup : t.keys.Nodup
  mem_keys : ∀ key, key ∈ t.keys ↔ (lastSetUp changes key).isSome
  sequences : (t.entries.map (·.sequence)).Nodup
  /-- however the entries are collected, sorting them by slot and number gives the listing -/
  sorted : ∀ es : List PropertyEntry, es.Perm t.entries →
    (es.mergeSort notAfter).map (·.key) = t.keys
  explicit : ∀ e ∈ t.entries, ∀ s, e.definition.position.slot? = some s → e.slot = s
  definitions : t.Holds (lastSetUp changes)
  /-- a change moves no other key -/
  others : ∀ c, (t.changed c).keys.filter (· ≠ c.key) = t.keys.filter (· ≠ c.key)
  /-- a new key without explicit position comes last, and so does one that gives up its own, as long
  as the slots can be counted up -/
  last : (∀ e ∈ t.entries, e.slot < Int32.maxValue) → ∀ d, d.position = .implicit →
    (∀ old, t.get? d.key = some old → old.position ≠ .implicit) →
    (t.setup d).2.keys = t.keys.filter (· ≠ d.key) ++ [d.key]
  /-- a key without explicit position that gets none keeps its place -/
  kept : ∀ d old, t.get? d.key = some old → old.position = .implicit → d.position = .implicit →
    (t.setup d).2.entries.map (·.place) = t.entries.map (·.place) ∧ (t.setup d).2.keys = t.keys
  refused : ∀ d, (t.setup d).1 = false ↔ ∃ old, t.get? d.key = some old ∧ (old == d) = true
  unchanged : ∀ d, (t.setup d).1 = false → (t.setup d).2 = t

/-- **Properties are presented in order**, after every sequence of changes of a table. -/
theorem presented_in_order (changes : List TableChange)
    (hnan : ∀ d, .setup d ∈ changes → HasNaN d.floats = false) :
    (after changes).InOrder changes := by
  have h := numbered_after changes
  have hholds := holds_after changes hnan
  refine
    { nodup := ?_
      mem_keys := fun key => ?_
      sequences := List.pairwise_map.mpr (h.increasing.imp fun hlt => Nat.ne_of_lt hlt)
      sorted := fun es hes => ?_
      explicit := h.explicit
      definitions := hholds
      others := h.filter_keys_changed
      last := fun hbound d hd hwas => h.keys_setup hbound hd hwas
      kept := fun d old hold hwas hd => ?_
      refused := fun d => setup_eq_false_iff
      unchanged := fun d => setup_of_eq_false }
  · exact (((listing_perm _).map _).nodup_iff).mpr h.keys
  · have hrel := hholds key
    rw [PropertyTable.mem_keys, contains_eq_isSome]
    generalize (after changes).get? key = stored, lastSetUp changes key = expected at hrel ⊢
    cases hrel <;> rfl
  · rw [sorted_eq_listing h.increasing hes, keys_eq_listing]
  · have hplaces := h.places_setup hold hwas hd
    exact ⟨hplaces, keys_eq_of_places hplaces⟩

/-- Of four properties, two have explicit positions.  The first one is at slot 0, the third one is
behind the second, and the fourth one goes between. -/
theorem presented_in_order_dimensions :
    let number (key : String) (position : PropertyPosition) : PropertyDef :=
      { key := ⟨key⟩, name := key, kind := .float, position }
    let changes : List TableChange :=
      [.setup (number "color" (.explicit 5)), .setup (number "height" .implicit),
        .setup (number "width" (.explicit 10)), .setup (number "depth" .implicit)]
    (∀ d, .setup d ∈ changes → HasNaN d.floats = false) ∧ (after changes).InOrder changes ∧
      (∀ e ∈ (after changes).entries, e.slot < Int32.maxValue) ∧
      (after changes).keys = [⟨"depth"⟩, ⟨"color"⟩, ⟨"width"⟩, ⟨"height"⟩] := by
  intro number changes
  have hnan : ∀ d, .setup d ∈ changes → HasNaN d.floats = false := by
    simp [changes, number, PropertyDef.floats, PropertyKind.floats]
  have hentries : (after changes).entries =
      [⟨number "depth" .implicit, 0, 0⟩, ⟨number "width" (.explicit 10), 10, 1⟩,
        ⟨number "height" .implicit, 11, 2⟩, ⟨number "color" (.explicit 5), 5, 3⟩] := by
    rfl
  have hbound : ∀ e ∈ (after changes).entries, e.slot < Int32.maxValue := by
    rw [hentries]
    decide
  refine ⟨hnan, presented_in_order changes hnan, hbound, ?_⟩
  rw [keys_eq_listing, hentries, listing_unique (l :=
    [⟨number "depth" .implicit, 0, 0⟩, ⟨number "color" (.explicit 5), 5, 3⟩,
      ⟨number "width" (.explicit 10), 10, 1⟩, ⟨number "height" .implicit, 11, 2⟩])]
  · rfl
  · simp [Increasing]
  · exact List.Perm.cons _ (.trans (.swap _ _ _) (.cons _ (.swap _ _ _)))
  · simp [Precedes]

end PropertyTable

end ProductModel
