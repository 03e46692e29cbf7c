import ProductModel.Proofs.Showroom.Building

/-!
# A cabinet in order

Whatever is done with the cabinet of a showroom, it is in order afterwards: it has a shelf, it has
no children but its shelves, they are as wide as it is, and it has no doors that are too wide
(`cabinet_stays_in_order`).

What is done with it are operations from outside, one after the other: values of any kind are
assigned to any of its properties, elements of any type are added, and elements are removed.  Each
can be accepted, refused or fail.  Three parts of the showroom work together here.

* A change that is refused restores the cabinet, but not the shelves to which the catalog has passed
  the new width.  The cabinet gives them the restored one when it is told about the change that was
  taken back.
* A new shelf takes its width from the cabinet at the moment it is made.
* The rules of the cabinet admit shelves alone, and do not give up the last one.

The invariant behind this is `Room.Tidy`, which also says how the instances are laid out; `InOrder`
is what can be seen of it.
-/

namespace ProductModel.Showroom

open ProductModel.Action

variable {σ : Type} {w w' : World Routine σ} {room : Room} {cabinet : Instance Routine}
  {op : Op Routine}

/-! ## What is seen -/

/-- **A property has a value** for those who read it. -/
def Reads (w : World Routine σ) (id : InstanceId) (key : Symbol) (v : Value) : Prop :=
  ∀ allowance, ∃ w', (perform language (allowance + 1) (.getProperty id key)).outcome w =
    some (.ok v, w')

/-- **The cabinet is in order**, with its shelves, its width and what it says about doors. -/
structure Room.InOrder (room : Room) (w : World Routine σ) (shelves : List InstanceId)
    (wide doored : Value) : Prop where
  /-- its elements that are shelves -/
  listed : Showroom.shelvesOf w.model room.cabinet = .ok shelves
  nonempty : shelves ≠ []
  /-- it has no other children -/
  only : w.model.arena.childrenOf room.cabinet = shelves
  width : Reads w room.cabinet Showroom.width wide
  doors : Reads w room.cabinet Showroom.doors doored
  fits : doored.isTruthy = true → ∀ x, wide.toFloat? = some x → ¬maxDoorWidth < x
  even : ∀ s ∈ shelves, Reads w s Showroom.width wide

/-! ## What is done -/

/-- **What can be done with the cabinet**, as far as its use is considered here.  What is removed is
an element of it, or is not there any more. -/
inductive Room.Use (room : Room) (w : World Routine σ) : Op Routine → Prop
  | change (key : Symbol) (v : Value) : Use room w (.setProperty room.cabinet key v)
  | add (typeName : String) (args : List Value) :
      Use room w (.addElement room.cabinet typeName args)
  | remove (s : InstanceId) :
      (w.model.arena.contains s = true → s ∈ w.model.arena.elementsOf room.cabinet) →
      Use room w (.remove s)

/-- **The use of a room**: one operation after the other, whatever each comes to.  The bodies of the
showroom are nested at most three deep, so an allowance of three is enough for every one of them. -/
inductive Room.Used (room : Room) (w : World Routine σ) : World Routine σ → Prop
  | nothing : Used room w w
  | step {w₁ w₂ : World Routine σ} {op : Op Routine} {allowance : Nat}
      {r : Except ModelError op.Answer} : Used room w w₁ → room.Use w₁ op →
      (perform language (allowance + 3) op).outcome w₁ = some (r, w₂) → Used room w w₂

/-! ## What is kept -/

/-- **Each use** of a tidy cabinet that has a shelf comes to an end, and leaves a tidy cabinet that
has a shelf. -/
theorem Room.Tidy.exists_use (h : room.Tidy cabinet w) (hsome : cabinet.children ≠ [])
    (huse : room.Use w op) (allowance : Nat) :
    ∃ r w' after, (perform language (allowance + 3) op).outcome w = some (r, w') ∧
      room.Tidy after w' ∧ after.children ≠ [] := by
  cases huse with
  | change key v =>
    obtain ⟨r, w', after, hset, h', hchildren⟩ := h.exists_setProperty (allowance + 1) key v
    exact ⟨r, w', after, hset, h', hchildren ▸ hsome⟩
  | add typeName args =>
    obtain ⟨r, w', after, hadd, h', hadds⟩ := h.exists_addElement allowance typeName args
    refine ⟨r, w', after, hadd, h', ?_⟩
    cases hadds with
    | failed err => exact hsome
    | rejected rejection hother => exact hsome
    | accepted id => exact List.ne_nil_of_mem (List.mem_append_right _ List.mem_cons_self)
  | remove s hs =>
    rw [h.furnished.elementsOf rfl] at hs
    obtain ⟨r, w', after, hremove, h', hkept⟩ := h.exists_remove (allowance + 2) hs
    exact ⟨r, w', after, hremove, h', hkept hsome⟩

/-- **All use** of a tidy cabinet that has a shelf leaves a tidy cabinet that has a shelf. -/
theorem Room.Tidy.exists_used (h : room.Tidy cabinet w) (hsome : cabinet.children ≠ [])
    (hused : room.Used w w') : ∃ after, room.Tidy after w' ∧ after.children ≠ [] := by
  induction hused with
  | nothing => exact ⟨cabinet, h, hsome⟩
  | step _ huse hrun ih =>
    obtain ⟨before, hbefore, hsomeBefore⟩ := ih
    obtain ⟨r', w', after, hrun', h', hsome'⟩ := hbefore.exists_use hsomeBefore huse _
    obtain ⟨-, rfl⟩ := Prod.mk.inj (Option.some.inj (hrun.symm.trans hrun'))
    exact ⟨after, h', hsome'⟩

/-- **What is seen of a tidy cabinet** that has a shelf. -/
theorem Room.Tidy.inOrder (h : room.Tidy cabinet w) (hsome : cabinet.children ≠ []) :
    room.InOrder w cabinet.children (cabinet.stored width) (cabinet.stored doors) where
  listed := h.furnished.shelvesOf rfl
  nonempty := hsome
  only := Arena.childrenOf_eq h.furnished.there
  width := by
    obtain ⟨w', hread, -⟩ := h.furnished.exists_getProperty cabinetTable_contains_width
    exact fun allowance => ⟨w', hread allowance⟩
  doors := by
    obtain ⟨w', hread, -⟩ := h.furnished.exists_getProperty cabinetTable_contains_doors
    exact fun allowance => ⟨w', hread allowance⟩
  fits := by
    intro hdoors x hx hwide
    have hfits := h.fits
    simp [Showroom.fits, hdoors, hx, hwide] at hfits
  even := by
    intro s hs allowance
    obtain ⟨i, hi, -⟩ := h.furnished.shelf s hs
    obtain ⟨w', hread⟩ := h.furnished.exists_getProperty_shelf hs hi shelfTable_contains_width
    rw [h.even s hs i hi] at hread
    exact ⟨w', hread allowance⟩

/-- **A cabinet stays in order.**  With values checked, building a showroom with at least one shelf
comes to an end, and if it succeeds then, after any use, the cabinet is in order, and whatever can
be done with it comes to an end as well. -/
theorem cabinet_stays_in_order {config : Config}
    (hvalidates : config.validateProperties = true) (host : σ) {n : Nat} (hn : 1 ≤ n)
    (allowance : Nat) :
    ∃ r w, (Body.exec language (allowance + 3) (build id n)).outcome { config, host } =
        some (r, w) ∧
      ∀ room, r = .ok room → ∀ w', room.Used w w' →
        (∃ shelves wide doored, room.InOrder w' shelves wide doored) ∧
        ∀ op, room.Use w' op → ∀ allowance, ∃ answer w'',
          (perform language (allowance + 3) op).outcome w' = some (answer, w'') := by
  obtain ⟨r, w, hbuild, hroom⟩ := exists_build allowance hvalidates host n
  refine ⟨r, w, hbuild, fun room hr w' hused => ?_⟩
  obtain ⟨cabinet, htidy, hsome⟩ := hroom room hr
  obtain ⟨after, h', hsome'⟩ := htidy.exists_used (hsome hn) hused
  refine ⟨⟨_, _, _, h'.inOrder hsome'⟩, fun op huse allowance => ?_⟩
  obtain ⟨answer, w'', -, hrun, -⟩ := h'.exists_use hsome' huse allowance
  exact ⟨answer, w'', hrun⟩

/-- A cabinet that is asked to give up its only shelf refuses that and stays in order. -/
theorem cabinet_stays_in_order_last_shelf :
    ∃ (room : Room) (w w' : World Routine Unit) (rejection : Rejection),
      (Body.exec language 3 (build id 1)).outcome { config := {}, host := () } =
        some (.ok room, w) ∧
      (perform language 3 (.remove ⟨2, 0⟩)).outcome w = some (.ok (.vetoed rejection), w') ∧
      ∃ shelves wide doored, room.InOrder w' shelves wide doored := by
  obtain ⟨r, w, hbuild, horder⟩ := cabinet_stays_in_order
    (show ({} : Config).validateProperties = true from rfl) () (Nat.le_refl 1) 0
  have hrun : ((Body.exec language 3 (build id 1)).outcome { config := {}, host := () }).any
      (fun built => built.1.toOption == some ⟨⟨0, 0⟩, ⟨1, 0⟩, [⟨2, 0⟩]⟩ &&
        built.2.model.arena.elementsOf ⟨1, 0⟩ == [⟨2, 0⟩] &&
        ((perform language 3 (.remove ⟨2, 0⟩)).outcome built.2).any fun after =>
          after.1.toOption.any fun | .vetoed _ => true | .removed _ => false) = true := by
    decide +kernel
  rw [show (Body.exec language 3 (build id 1)).outcome { config := {}, host := () } =
    some (r, w) from hbuild] at hrun
  simp only [Option.any_some, Option.any_eq_true, Bool.and_eq_true, beq_iff_eq, Prod.exists]
    at hrun
  obtain ⟨⟨hroom, helements⟩, answer, w', hremove, outcome, hanswer, hvetoed⟩ := hrun
  obtain _ | room := r
  · cases hroom
  obtain rfl := Option.some.inj hroom
  obtain _ | given := answer
  · cases hanswer
  obtain rfl : given = outcome := Option.some.inj hanswer
  obtain _ | rejection := given
  · cases hvetoed
  have hmem : ⟨2, 0⟩ ∈ w.model.arena.elementsOf ⟨1, 0⟩ := by
    rw [helements]
    exact List.mem_cons_self
  have hremove' : (perform language (0 + 3) (.remove ⟨2, 0⟩)).outcome w = _ := hremove
  exact ⟨_, w, w', rejection, hbuild, hremove,
    (horder _ rfl w' (.step .nothing (.remove _ fun _ => hmem) hremove')).1⟩

end ProductModel.Showroom
