import ProductModel.Proofs.FirstOccurrences
import ProductModel.Proofs.Run.ChangesNoted

/-!
# Records of changes that agree with the notes

While calls set properties, the model keeps a list of written keys for each of them.
`ChangeSight.Lists` says what these lists should be, by the notes on the run: each holds the keys
that the call itself has written, in the order of their first writes.  `EndedChange.Kept` says what
a call should leave behind.

`ChangeWatch.Faithful` says that a record agrees with the notes, and `ChangeWatch.Leads` what every
stretch of a run does: the same changes are at work afterwards, the innermost may have written more,
and a faithful record is faithful again.  A write does that (`ChangeWatch.leads_write`), a program
that looks does (`ChangeWatch.leads_see`), and so does a whole call that sets a property
(`ChangeWatch.Closes.leads`), whichever way it ends.

## Design

Between the start of a change and its own write the record is not faithful, because the list of the
change is empty.  No program has control then: if there is no instance any more to write to, the
change cannot be put back either, and ends at once (`ChangeWatch.Carried`).

A property that is written while a change around has not come to writing makes the notes stray, and
nothing is said of the record from then on.
-/

namespace ProductModel

variable {c c' c'' : ChangeHistory} {t t' t'' : ChangeWatch} {key : Symbol}

/-! ## What the lists tell -/

/-- **A sight of the lists that they should be**, if the writes of a change count as told. -/
structure ChangeSight.Lists (s : ChangeSight) (keys : List PropertyWrite → List Symbol) : Prop where
  /-- there is a list for each change that has come to writing -/
  running : s.changes.running = s.work.filterMap fun a => a.writes.map keys
  /-- the innermost change has written the key first that it sets -/
  innermost : ∀ {a outer writes}, s.work = a :: outer → a.writes = some writes →
    s.changes.current = keys writes ∧ (keys writes).Nodup ∧ (keys writes).head? = some a.key
  idle : s.work = [] → s.changes.current = keys s.last

/-- **A change that has left the lists as they should be.** -/
structure EndedChange.Kept (x : EndedChange) (keys : List PropertyWrite → List Symbol) :
    Prop where
  running : x.after.running = x.before.running
  outermost : x.outer = [] → x.after.current = keys (x.change.writes.getD [])
  /-- no key is written if there is no instance any more to write the first one to -/
  first : ∀ {writes}, x.change.writes = some writes → (keys writes).Nodup ∧
    (keys writes = [] ∨ (keys writes).head? = some x.change.key)

/-! ## Lists of keys -/

namespace PropertyWrite

variable (writes : List PropertyWrite)

theorem written_refused (key : Symbol) : written (writes ++ [⟨key, false⟩]) = written writes := by
  unfold written
  rw [List.filter_append, List.filter_cons_of_neg Bool.false_ne_true, List.filter_nil,
    List.append_nil]

theorem written_taken (key : Symbol) :
    written (writes ++ [⟨key, true⟩]) =
      if (written writes).contains key then written writes else written writes ++ [key] := by
  unfold written
  rw [List.filter_append, List.map_append]
  show (_ ++ [key]).eraseDups = _
  rw [eraseDups_concat]
  simp only [List.contains_iff_mem, List.mem_eraseDups]

theorem nodup_written : (written writes).Nodup := nodup_eraseDups _

/-- Further writes come later. -/
theorem head?_written_concat {writes : List PropertyWrite} {first : Symbol} (x : PropertyWrite)
    (h : (written writes).head? = some first) :
    (written (writes ++ [x])).head? = some first := by
  obtain ⟨key, taken⟩ := x
  cases taken with
  | false => rwa [written_refused]
  | true =>
    rw [written_taken]
    split
    · exact h
    · rw [List.head?_append, h]
      rfl

end PropertyWrite

open PropertyWrite (written)

/-! ## Faithful records -/

/-- The lists of the changes that have come to writing. -/
def ChangeAtWork.lists (work : List ChangeAtWork) : List (List Symbol) :=
  work.filterMap fun a => a.writes.map written

namespace ChangeWatch

/-- **A record that agrees with the notes.** -/
structure Faithful (t : ChangeWatch) (c : ChangeHistory) : Prop where
  running : c.running = ChangeAtWork.lists t.work
  first : ∀ a ∈ t.work, ∀ {writes}, a.writes = some writes →
    (written writes).head? = some a.key
  idle : t.work = [] → c.last = written t.last
  /-- no change has ended since the one began that is to come to writing first -/
  waiting : t.work ≠ [] → (∀ a ∈ t.work, a.writes = none) → c.last = []
  sights : ∀ s ∈ t.sights, s.Lists written
  ended : ∀ x ∈ t.ended, x.Kept written

/-- **What a stretch of a run does to the record and the notes.** -/
structure Leads (t : ChangeWatch) (c : ChangeHistory) (t' : ChangeWatch) (c' : ChangeHistory) :
    Prop where
  strayed : t.strayed = true → t'.strayed = true
  /-- changes are at work that were, and of these the innermost may have written more -/
  work : ∃ more, t'.work = t.work.modifyHead (·.adding more)
  faithful : t'.strayed = false → t.Faithful c → t'.Faithful c'

end ChangeWatch

namespace ChangeAtWork

/-- What is written before a change comes to writing is none of its writes. -/
theorem adding_of_waiting {a : ChangeAtWork} {more : List PropertyWrite} (h : a.writes = none) :
    a.adding more = a := by
  rw [adding, h, Option.map_none, ← h]

theorem adding_nil (a : ChangeAtWork) : a.adding [] = a := by
  obtain ⟨key, writes⟩ := a
  cases writes with
  | none => rfl
  | some writes => simp [adding]

theorem adding_adding (a : ChangeAtWork) (more further : List PropertyWrite) :
    (a.adding more).adding further = a.adding (more ++ further) := by
  obtain ⟨key, writes⟩ := a
  cases writes with
  | none => rfl
  | some writes => simp [adding]

end ChangeAtWork

namespace ChangeWatch

namespace Leads

theorem refl (t : ChangeWatch) (c : ChangeHistory) : t.Leads c t c where
  strayed h := h
  work := ⟨[], by cases t.work with
    | nil => rfl
    | cons a outer => rw [List.modifyHead_cons, a.adding_nil]⟩
  faithful _ h := h

theorem not_strayed (h : t.Leads c t' c') (hs : t'.strayed = false) : t.strayed = false :=
  Bool.eq_false_iff.mpr fun hstrayed => Bool.false_ne_true (hs.symm.trans (h.strayed hstrayed))

theorem trans (h : t.Leads c t' c') (h' : t'.Leads c' t'' c'') : t.Leads c t'' c'' where
  strayed hs := h'.strayed (h.strayed hs)
  work := by
    obtain ⟨more, hmore⟩ := h.work
    obtain ⟨further, hfurther⟩ := h'.work
    refine ⟨more ++ further, ?_⟩
    rw [hfurther, hmore]
    cases t.work with
    | nil => rfl
    | cons a outer => rw [List.modifyHead_cons, List.modifyHead_cons, List.modifyHead_cons,
        a.adding_adding]
  faithful hs hfaithful := h'.faithful hs (h.faithful (h'.not_strayed hs) hfaithful)

end Leads

/-! ## Sights -/

theorem Faithful.lists (h : t.Faithful c) : ChangeSight.Lists ⟨c, t.work, t.last⟩ written where
  running := h.running
  innermost {a outer writes} hwork hwrites := by
    change t.work = a :: outer at hwork
    have hrunning := h.running
    rw [hwork, ChangeAtWork.lists, List.filterMap_cons, hwrites] at hrunning
    refine ⟨?_, PropertyWrite.nodup_written writes, h.first a ?_ hwrites⟩
    · rw [ChangeHistory.current, hrunning]
      rfl
    · rw [hwork]
      exact List.mem_cons_self
  idle hwork := by
    change t.work = [] at hwork
    have hrunning := h.running
    rw [hwork] at hrunning
    rw [ChangeHistory.current, hrunning]
    exact h.idle hwork

/-- **A program that sees the record** sees it as it should be. -/
theorem leads_see (t : ChangeWatch) (c : ChangeHistory) : t.Leads c (t.see c) c where
  strayed h := h
  work := (Leads.refl t c).work
  faithful _ h := { h with
    sights := by
      intro s hs
      rcases List.mem_append.mp hs with hs | hs
      · exact h.sights s hs
      · obtain rfl := List.mem_singleton.mp hs
        exact h.lists }

/-! ## Writes -/

theorem Faithful.congr (h : t.Faithful c) (hwork : t'.work = t.work) (hlast : t'.last = t.last)
    (hsights : t'.sights = t.sights) (hended : t'.ended = t.ended) : t'.Faithful c where
  running := by rw [hwork]; exact h.running
  first := by rw [hwork]; exact h.first
  idle := by rw [hwork, hlast]; exact h.idle
  waiting := by rw [hwork]; exact h.waiting
  sights := by rw [hsights]; exact h.sights
  ended := by rw [hended]; exact h.ended

/-- The record after a write, if there is an instance to write to. -/
def taking (c : ChangeHistory) (x : PropertyWrite) : ChangeHistory :=
  if x.taken then c.record x.key else c

/-- A write of a change that has come to writing is recorded as it is noted. -/
theorem taking_of_running {writes : List PropertyWrite} {outer : List (List Symbol)}
    (h : c.running = written writes :: outer) (x : PropertyWrite) :
    taking c x = { c with running := written (writes ++ [x]) :: outer } := by
  obtain ⟨key, taken⟩ := x
  cases taken with
  | false =>
    rw [PropertyWrite.written_refused, ← h]
    rfl
  | true =>
    rw [PropertyWrite.written_taken]
    show c.record key = _
    unfold ChangeHistory.record
    rw [h]
    dsimp only
    split
    · rw [← h]
    · rfl

theorem taking_of_idle (h : c.running = []) (x : PropertyWrite) : taking c x = c := by
  unfold taking ChangeHistory.record
  rw [h]
  split <;> rfl

/-- A write is refused that does not stray while a change has not come to writing. -/
theorem not_taken_of_waiting {x : PropertyWrite} {a : ChangeAtWork}
    (hstrayed : (t.write x).strayed = false) (ha : a ∈ t.work) (hwrites : a.writes = none) :
    x.taken = false := by
  have hwaiting : t.work.any (·.writes.isNone) = true :=
    List.any_eq_true.mpr ⟨a, ha, by rw [hwrites]; rfl⟩
  rw [write, hwaiting, Bool.and_true, Bool.or_eq_false_iff] at hstrayed
  exact hstrayed.2

/-- A change that has come to writing writes on. -/
theorem Faithful.write (h : t.Faithful c) {a : ChangeAtWork} {outer : List ChangeAtWork}
    {writes : List PropertyWrite} (hwork : t.work = a :: outer) (hwrites : a.writes = some writes)
    (x : PropertyWrite) : (t.write x).Faithful (taking c x) := by
  have hrunning := h.running
  rw [hwork, ChangeAtWork.lists, List.filterMap_cons, hwrites] at hrunning
  have hwork' : (t.write x).work = ⟨a.key, some (writes ++ [x])⟩ :: outer := by
    rw [ChangeWatch.write, hwork, List.modifyHead_cons, ChangeAtWork.adding, hwrites,
      Option.map_some]
  have hfirst := h.first a (by rw [hwork]; exact List.mem_cons_self) hwrites
  rw [taking_of_running hrunning]
  refine ⟨by rw [hwork']; rfl, ?_, fun hnil => ?_, fun _ hnone => ?_, h.sights, h.ended⟩
  · rw [hwork']
    intro b hb ws hws
    rcases List.mem_cons.mp hb with rfl | hb
    · cases hws
      exact PropertyWrite.head?_written_concat x hfirst
    · exact h.first b (by rw [hwork]; exact List.mem_cons_of_mem _ hb) hws
  · rw [hwork'] at hnil
    cases hnil
  · rw [hwork'] at hnone
    cases hnone _ List.mem_cons_self

/-- **Writing a property** is recorded as it is noted. -/
theorem leads_write (t : ChangeWatch) (c : ChangeHistory) (x : PropertyWrite) :
    t.Leads c (t.write x) (taking c x) where
  strayed h := by
    show (t.strayed || _) = true
    rw [h, Bool.true_or]
  work := ⟨[x], rfl⟩
  faithful hstrayed h := by
    -- A write belongs to the innermost change that is at work, if there is one.
    cases hwork : t.work with
    | nil =>
      have hrunning := h.running
      rw [hwork] at hrunning
      rw [taking_of_idle hrunning]
      exact h.congr (by rw [write, hwork]; rfl) rfl rfl rfl
    | cons a outer =>
      cases hwrites : a.writes with
      | none =>
        have hrefused : x.taken = false :=
          not_taken_of_waiting hstrayed (by rw [hwork]; exact List.mem_cons_self) hwrites
        have hnothing : taking c x = c := by rw [taking, hrefused]; rfl
        rw [hnothing]
        refine h.congr ?_ rfl rfl rfl
        rw [write, hwork, List.modifyHead_cons, ChangeAtWork.adding_of_waiting hwrites]
      | some writes => exact h.write hwork hwrites x

/-! ## Beginning and ending -/

/-- **A change begins.** -/
theorem Faithful.begin (h : t.Faithful c) (key : Symbol) : (t.begin key).Faithful c.clearLast where
  running := h.running
  first a ha writes hwrites := by
    rcases List.mem_cons.mp ha with rfl | ha
    · cases hwrites
    · exact h.first a ha hwrites
  idle hwork := by cases hwork
  waiting _ _ := rfl
  sights := h.sights
  ended := h.ended

theorem finish_of_work {a : ChangeAtWork} {outer : List ChangeAtWork} (h : t.work = a :: outer)
    (before after : ChangeHistory) :
    t.finish before after =
      { t with
        work := outer
        last := if outer.isEmpty then a.writes.getD [] else t.last
        ended := t.ended ++ [⟨a, outer, before, after⟩] } := by
  unfold finish
  rw [h]

/-- **A change ends** in whatever way, if the lists agree with the notes about the others. -/
theorem faithful_finish {a : ChangeAtWork} {outer : List ChangeAtWork}
    {before after : ChangeHistory} (hwork : t.work = a :: outer)
    (hsights : ∀ s ∈ t.sights, s.Lists written) (hended : ∀ x ∈ t.ended, x.Kept written)
    (hbefore : before.running = ChangeAtWork.lists outer)
    (hrunning : after.running = ChangeAtWork.lists outer)
    (houter : ∀ b ∈ outer, ∀ {writes}, b.writes = some writes → (written writes).head? = some b.key)
    (hlast : (∀ b ∈ outer, b.writes = none) →
      after.last = if outer.isEmpty then written (a.writes.getD []) else [])
    (hfirst : ∀ {writes}, a.writes = some writes →
      written writes = [] ∨ (written writes).head? = some a.key) :
    (t.finish before after).Faithful after := by
  rw [finish_of_work hwork]
  -- When the outermost change ends, its list is what is asked for from now on.
  have hidle : outer = [] → after.last = written (a.writes.getD []) := by
    rintro rfl
    exact hlast fun b hb => absurd hb List.not_mem_nil
  refine ⟨hrunning, houter, ?_, ?_, hsights, ?_⟩
  · intro hnil
    change outer = [] at hnil
    rw [hidle hnil, hnil]
    rfl
  · intro hsome hnone
    rw [hlast hnone, if_neg]
    rwa [List.isEmpty_iff]
  · intro x hx
    rcases List.mem_append.mp hx with hx | hx
    · exact hended x hx
    · obtain rfl := List.mem_singleton.mp hx
      refine ⟨hrunning.trans hbefore.symm, fun hnil => ?_, fun hwrites =>
        ⟨PropertyWrite.nodup_written _, hfirst hwrites⟩⟩
      change outer = [] at hnil
      show after.current = _
      rw [ChangeHistory.current, hrunning, hnil]
      exact hidle hnil

/-! ## From the beginning to the end -/

/-- **What a change does once it has started**: it writes the value and goes on, or ends because
there is nothing any more to write to. -/
inductive Carried (key : Symbol) (t : ChangeWatch) (c : ChangeHistory) :
    ChangeWatch → ChangeHistory → Prop
  | written {t' : ChangeWatch} {c' : ChangeHistory} :
    (t.write ⟨key, true⟩).Leads (c.record key) t' c' → Carried key t c t' c'
  | refused : Carried key t c (t.write ⟨key, false⟩) c

/-- **What is left to a change to do once it has begun**: it ends before it starts, or it starts and
is carried out. -/
inductive Closes (key : Symbol) (t : ChangeWatch) (c : ChangeHistory) :
    ChangeWatch → ChangeHistory → Prop
  | unstarted {t' : ChangeWatch} {c' : ChangeHistory} : t.Leads c t' c' → Closes key t c t' c'
  | carried {t' t'' : ChangeWatch} {c' c'' : ChangeHistory} : t.Leads c t' c' →
    Carried key t'.start c'.start t'' c'' → Closes key t c t'' c''.finish

theorem Leads.work_begin (h : (t.begin key).Leads c t' c') : t'.work = ⟨key, none⟩ :: t.work := by
  obtain ⟨more, hmore⟩ := h.work
  exact hmore

theorem start_work {outer : List ChangeAtWork} (h : t.work = ⟨key, none⟩ :: outer) :
    t.start.work = ⟨key, some []⟩ :: outer := by
  rw [start, h]
  rfl

theorem write_start_work {outer : List ChangeAtWork} (h : t.work = ⟨key, none⟩ :: outer)
    (x : PropertyWrite) : (t.start.write x).work = ⟨key, some [x]⟩ :: outer := by
  rw [write, start_work h]
  rfl

/-- **The first write of a change makes the record faithful** that was so before its start. -/
theorem Faithful.started {outer : List ChangeAtWork} (h : t.Faithful c)
    (hwork : t.work = ⟨key, none⟩ :: outer) :
    (t.start.write ⟨key, true⟩).Faithful (c.start.record key) := by
  have hwork' := write_start_work hwork ⟨key, true⟩
  have hrunning : c.running = ChangeAtWork.lists outer := by
    rw [h.running, hwork]
    rfl
  refine ⟨?_, ?_, fun hnil => ?_, fun _ hnone => ?_, h.sights, h.ended⟩
  · show [key] :: c.running = _
    rw [hwork', hrunning]
    rfl
  · rw [hwork']
    intro a ha writes hwrites
    rcases List.mem_cons.mp ha with rfl | ha
    · cases hwrites
      rfl
    · exact h.first a (by rw [hwork]; exact List.mem_cons_of_mem _ ha) hwrites
  · rw [hwork'] at hnil
    cases hnil
  · rw [hwork'] at hnone
    cases hnone _ List.mem_cons_self

/-- A change that ends before it starts leaves the lists alone. -/
theorem Faithful.unstarted (h : t.Faithful c) (h' : t'.Faithful c')
    (hwork : t'.work = ⟨key, none⟩ :: t.work) : (t'.finish c c').Faithful c' := by
  refine faithful_finish hwork h'.sights h'.ended h.running ?_ h.first (fun hnone => ?_)
    fun hwrites => by cases hwrites
  · rw [h'.running, hwork]
    rfl
  · have hlast : c'.last = [] := by
      refine h'.waiting (by rw [hwork]; exact List.cons_ne_nil _ _) ?_
      rw [hwork]
      intro a ha
      rcases List.mem_cons.mp ha with rfl | ha
      · rfl
      · exact hnone a ha
    rw [hlast]
    split <;> rfl

/-- The list of a change that was carried out becomes the last one, and it was the only one. -/
theorem Faithful.carried {writes : List PropertyWrite} (h : t.Faithful c) (h' : t'.Faithful c')
    (hwork : t'.work = ⟨key, some writes⟩ :: t.work) (hsome : ∀ a ∈ t.work, a.writes ≠ none) :
    (t'.finish c c'.finish).Faithful c'.finish := by
  have hrunning : c'.running = written writes :: ChangeAtWork.lists t.work := by
    rw [h'.running, hwork]
    rfl
  refine faithful_finish hwork h'.sights h'.ended h.running ?_ h.first (fun hnone => ?_)
    fun {ws} hws => .inr (h'.first _ (by rw [hwork]; exact List.mem_cons_self) hws)
  · rw [ChangeHistory.finish, hrunning]
    rfl
  · have hnil : t.work = [] :=
      List.eq_nil_iff_forall_not_mem.mpr fun a ha => hsome a ha (hnone a ha)
    rw [ChangeHistory.finish, hrunning, hnil]
    rfl

/-- A change that is refused its own write leaves the lists alone. -/
theorem Faithful.refused (h : t.Faithful c) (h' : t'.Faithful c')
    (hwork : t'.work = ⟨key, none⟩ :: t.work) :
    ((t'.start.write ⟨key, false⟩).finish c c'.start.finish).Faithful c'.start.finish := by
  have hrunning : c'.running = ChangeAtWork.lists t.work := by
    rw [h'.running, hwork]
    rfl
  refine faithful_finish (write_start_work hwork _) h'.sights h'.ended h.running hrunning h.first
    (fun _ => ?_) fun hwrites => ?_
  · split <;> rfl
  · cases hwrites
    exact .inl rfl

/-- When the own write of a change has not strayed, all changes around have come to writing. -/
theorem not_waiting_of_started {outer : List ChangeAtWork} (hwork : t.work = ⟨key, none⟩ :: outer)
    (hstrayed : (t.start.write ⟨key, true⟩).strayed = false) :
    t.strayed = false ∧ ∀ a ∈ outer, a.writes ≠ none := by
  rw [write, Bool.or_eq_false_iff, Bool.true_and, start_work hwork, List.any_cons,
    Bool.or_eq_false_iff] at hstrayed
  obtain ⟨hbefore, -, houter⟩ := hstrayed
  refine ⟨hbefore, fun a ha hnone => ?_⟩
  have hisNone := List.any_eq_false.mp houter a ha
  rw [hnone] at hisNone
  exact hisNone rfl

/-- **A call as a whole**, whose change is the innermost one in the end. -/
theorem leads_finish {a : ChangeAtWork} (hwork : t'.work = a :: t.work)
    (hstrayed : t.strayed = true → t'.strayed = true)
    (hfaithful : t'.strayed = false → t.Faithful c → (t'.finish c c').Faithful c') :
    t.Leads c (t'.finish c c') c' := by
  have hend := finish_of_work hwork c c'
  obtain ⟨more, hmore⟩ := (Leads.refl t c).work
  refine ⟨fun hs => ?_, ⟨more, ?_⟩, fun hs => hfaithful ?_⟩
  · rw [hend]
    exact hstrayed hs
  · rw [hend]
    exact hmore
  · rw [hend] at hs
    exact hs

/-- **A call that sets a property** leaves all lists as they were, apart from the last one. -/
theorem Closes.leads (h : Closes key (t.begin key) c.clearLast t' c') :
    t.Leads c (t'.finish c c') c' := by
  cases h with
  | unstarted hleads =>
    exact leads_finish hleads.work_begin hleads.strayed fun hs hfaithful =>
      hfaithful.unstarted (hleads.faithful hs (hfaithful.begin key)) hleads.work_begin
  | carried hleads hcarried =>
    rename_i t₁ c₁ _
    have hwork := hleads.work_begin
    have hown := fun x => leads_write t₁.start c₁ x
    cases hcarried with
    | written hrest =>
      obtain ⟨more, hmore⟩ := hrest.work
      rw [write_start_work hwork] at hmore
      refine leads_finish hmore
        (fun hs => hrest.strayed ((hown _).strayed (hleads.strayed hs))) fun hs hfaithful => ?_
      obtain ⟨hbefore, hsome⟩ := not_waiting_of_started hwork (hrest.not_strayed hs)
      have hfaithful₁ := hleads.faithful hbefore (hfaithful.begin key)
      exact hfaithful.carried (hrest.faithful hs (hfaithful₁.started hwork)) hmore hsome
    | refused =>
      refine leads_finish (write_start_work hwork _)
        (fun hs => (hown _).strayed (hleads.strayed hs)) fun hs hfaithful => ?_
      have hfaithful₁ := hleads.faithful ((hown _).not_strayed hs) (hfaithful.begin key)
      exact hfaithful.refused hfaithful₁ hwork

theorem Leads.closes (h : t.Leads c t' c') (h' : Closes key t' c' t'' c'') :
    Closes key t c t'' c'' := by
  cases h' with
  | unstarted hrest => exact .unstarted (h.trans hrest)
  | carried hrest hcarried => exact .carried (h.trans hrest) hcarried

end ChangeWatch

end ProductModel
