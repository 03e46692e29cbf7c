import ProductModel.Proofs.Run.Outcomes
import ProductModel.Proofs.Run.Readings

/-!
# Properties with accessors after a change that is refused

A refused change is taken back by writing the values from before, one property after the other in
presentation order.  A setter may adjust other properties, so what was put right can be put wrong
again by a setter that comes later.

`Engine.Writings` is a way to read and to write the properties of an instance: reading gives what
was written last, unless writing another property has changed it.  Where properties can be written
and the type does nothing when it is told, `Writings.Refused.restored_unless_disturbed` says what
becomes of each of them after a refused change:

* It is read as before, or writing back a property that is presented later has disturbed it
  (`Writings.Refused.Disturbed`).
* Every one is read as before if writing a property leaves alone what is presented before it
  (`Writings.Forward`).

## Design

The law of `Engine.Writings` is about the property that is written and says nothing of the others.
Properties that are stored with the instance keep it as well as those that have accessors.
-/

namespace ProductModel

open ProductModel.Action

variable {β σ : Type} {w w' : World β σ} {id : InstanceId} {key : Symbol} {v : Value}
  {i : Instance β} {e : Engine β σ}

/-! ## Accessors -/

/-- **Reading a property with a getter** is calling it. -/
theorem Engine.outcome_getProperty_of_getter {owner : TypeId} {m : Method β}
    (hi : w.model.arena.get? id = some i) (hdeclared : i.properties.contains key = true)
    (hfinds : w.finds i.type (Accessor.getter key) = some (owner, m)) :
    (e.getProperty id key).outcome w =
      (e.invoke m (some id) []).outcome (w.lookingUp i.type (Accessor.getter key)) := by
  unfold getProperty
  rw [outcome_bind_ok (outcome_find hi), hdeclared]
  show (findMethod i.type (Accessor.getter key) >>= _).outcome w = _
  rw [outcome_bind_ok (outcome_findMethod _ _), hfinds]

/-- **Writing a property with a setter** records it and calls the setter. -/
theorem Engine.outcome_writeProperty_of_setter {owner : TypeId} {m : Method β}
    (hi : w.model.arena.get? id = some i)
    (hfinds : w.finds i.type (Accessor.setter key) = some (owner, m)) :
    (e.writeProperty id key v).outcome w =
      (e.invoke m (some id) [v] >>= fun _ => pure ()).outcome
        ((w.recording key).lookingUp i.type (Accessor.setter key)) := by
  have hrecord : (modifyChanges (·.record key) : Action β σ Unit).outcome w =
      some (.ok (), w.recording key) := rfl
  have hfound : (w.recording key).finds i.type (Accessor.setter key) = some (owner, m) := hfinds
  unfold writeProperty
  rw [outcome_bind_ok (outcome_typeOf hi), outcome_bind_ok hrecord,
    outcome_bind_ok (outcome_findMethod _ _), hfound]
  rfl

/-- The properties that an instance declares. -/
def World.table (w : World β σ) (id : InstanceId) : Option PropertyTable :=
  (w.model.arena.get? id).map (·.properties)

/-- **A way to read and to write the properties of an instance.** -/
structure Engine.Writings (e : Engine β σ) (id : InstanceId) extends e.Readings id where
  /-- writing a declared property gives it the value, and leaves the table as it is -/
  write : ∀ {w} {t : PropertyTable}, works w → w.table id = some t →
    ∀ {key}, t.contains key = true → ∀ v, ∃ w',
      (e.writeProperty id key v).outcome w = some (.ok (), w') ∧
      works w' ∧ reads w' key = v ∧ w'.table id = some t

/-- **A value is restored**: it is the one from before, or compares as the same. -/
def Value.Restores (now before : Value) : Prop := now = before ∨ now.same before = true

/-! ## Writing values back -/

/-- One value is written back, if it is not the same, and then the others. -/
theorem Engine.restoreValues_cons (e : Engine β σ) (id : InstanceId) (key : Symbol) (v : Value)
    (rest : List (Symbol × Value)) :
    e.restoreValues id ((key, v) :: rest) = (do
      let now ← e.getProperty id key
      if !now.same v then e.writeProperty id key v
      e.restoreValues id rest) := rfl

/-- Values are written back one after the other. -/
theorem Engine.outcome_restoreValues_append {xs ys : List (Symbol × Value)}
    (h : (e.restoreValues id xs).outcome w = some (.ok (), w')) :
    (e.restoreValues id (xs ++ ys)).outcome w = (e.restoreValues id ys).outcome w' := by
  induction xs generalizing w with
  | nil =>
    cases h
    rfl
  | cons x xs ih =>
    obtain ⟨key, v⟩ := x
    rw [restoreValues_cons] at h
    rw [List.cons_append, restoreValues_cons]
    obtain ⟨now, u, hread, h⟩ := exists_of_bind_ok h
    rw [outcome_bind_ok hread]
    dsimp only at h ⊢
    by_cases hsame : (!now.same v) = true
    · rw [if_pos hsame] at h ⊢
      obtain ⟨_, u', hwrite, h⟩ := exists_of_bind_ok h
      rw [outcome_bind_ok hwrite]
      exact ih h
    · rw [if_neg hsame] at h ⊢
      exact ih h

namespace Engine.Writings

variable (W : e.Writings id)

/-- **Writing a property leaves alone what is presented before it.** -/
def Forward (keys : List Symbol) : Prop :=
  ∀ {w w' k l v}, List.Sublist [k, l] keys → W.works w →
    (e.writeProperty id l v).outcome w = some (.ok (), w') → W.reads w' k = W.reads w k

/-- **A restored property is disturbed.**  The properties up to some point have been written back,
and it is read as before; the next one is not and is written back, and the first one is no more read
as before. -/
def Disturbs (value : Symbol → Value) (start : World β σ) (keys : List Symbol) (k : Symbol) :
    Prop :=
  ∃ done l rest u u' u'', keys = done ++ l :: rest ∧ k ∈ done ∧
    (e.restoreValues id (done.map fun k => (k, value k))).outcome start = some (.ok (), u) ∧
    (W.reads u k).Restores (value k) ∧ (W.reads u l).same (value l) = false ∧
    (e.getProperty id l).outcome u = some (.ok (W.reads u l), u') ∧
    W.works u' ∧ W.reads u' k = W.reads u k ∧
    (e.writeProperty id l (value l)).outcome u' = some (.ok (), u'') ∧
    ¬(W.reads u'' k).Restores (value k)

variable {W} {t : PropertyTable} {value : Symbol → Value} {start u : World β σ}

/-- Nothing is disturbed where writing leaves alone what is presented before. -/
theorem not_disturbs_of_forward {keys : List Symbol} (hforward : W.Forward keys) (k : Symbol) :
    ¬W.Disturbs value start keys k := by
  rintro ⟨done, l, rest, u, u', u'', hkeys, hk, -, hrestored, -, -, hworks, hsame, hwrite,
    hdisturbed⟩
  refine hdisturbed ?_
  have hordered : List.Sublist [k, l] keys := by
    rw [hkeys]
    exact (List.singleton_sublist.mpr hk).append (List.singleton_sublist.mpr List.mem_cons_self)
  rw [hforward hordered hworks hwrite, hsame]
  exact hrestored

/-- **One value is written back**, if it is not the same, and no other one is touched if it is. -/
theorem exists_restoreOne (hw : W.works w) (ht : w.table id = some t)
    (hdeclared : t.contains key = true) (v : Value) :
    ∃ w', (e.restoreValues id [(key, v)]).outcome w = some (.ok (), w') ∧
      W.works w' ∧ w'.table id = some t ∧ (W.reads w' key).Restores v ∧
      (W.reads w' = W.reads w ∨ (W.reads w key).same v = false ∧ ∃ u,
        (e.getProperty id key).outcome w = some (.ok (W.reads w key), u) ∧ W.Same w u ∧
        (e.writeProperty id key v).outcome u = some (.ok (), w')) := by
  obtain ⟨u, hread, hsame⟩ := W.exists_read hw key
  have hu : u.table id = some t := by
    have htable := congrArg (Option.map Prod.fst) hsame.frame
    unfold World.frame at htable
    rw [Option.map_map, Option.map_map] at htable
    exact htable.trans ht
  rw [restoreValues_cons, outcome_bind_ok hread]
  dsimp only
  -- What is read as the value already is not written.
  cases hdiffers : (W.reads w key).same v with
  | true =>
    refine ⟨u, rfl, hsame.works, hu, .inr ?_, .inl hsame.reads⟩
    rw [hsame.reads]
    exact hdiffers
  | false =>
    obtain ⟨w', hwrite, hworks, hgiven, htable⟩ := W.write hsame.works hu hdeclared v
    refine ⟨w', ?_, hworks, htable, .inl hgiven, .inr ⟨rfl, u, hread, hsame, hwrite⟩⟩
    rw [Bool.not_false, if_pos rfl, outcome_bind_ok hwrite]
    rfl

/-- **Writing values back**, one property after the other: each is read as before in the end, or was
disturbed. -/
theorem exists_restoreRest (done rest : List Symbol)
    (hdeclared : ∀ k ∈ rest, t.contains k = true)
    (hdone : (e.restoreValues id (done.map fun k => (k, value k))).outcome start =
      some (.ok (), u))
    (hu : W.works u) (ht : u.table id = some t)
    (hrestored : ∀ k ∈ done, (W.reads u k).Restores (value k) ∨
      W.Disturbs value start (done ++ rest) k) :
    ∃ w, (e.restoreValues id ((done ++ rest).map fun k => (k, value k))).outcome start =
        some (.ok (), w) ∧
      W.works w ∧ w.table id = some t ∧
      ∀ k ∈ done ++ rest, (W.reads w k).Restores (value k) ∨
        W.Disturbs value start (done ++ rest) k := by
  induction rest generalizing done u with
  | nil =>
    rw [List.append_nil] at hrestored ⊢
    exact ⟨u, hdone, hu, ht, hrestored⟩
  | cons l rest ih =>
    -- `l` is written back, and then counts among those that are done.
    obtain ⟨w, hout, hworks, htable, hl, hothers⟩ :=
      exists_restoreOne hu ht (hdeclared l List.mem_cons_self) (value l)
    have happend : done ++ l :: rest = done ++ [l] ++ rest := by simp
    rw [happend] at hrestored ⊢
    refine ih (done ++ [l]) (fun k hk => hdeclared k (List.mem_cons_of_mem l hk)) ?_ hworks
      htable ?_
    · rw [List.map_append, outcome_restoreValues_append hdone]
      exact hout
    · intro k hk
      by_cases hkl : k = l
      · subst hkl
        exact .inl hl
      · have hkdone : k ∈ done := by simpa [hkl] using hk
        rcases hothers with hsame | ⟨hdiffers, u', hread, hsame, hwrite⟩
        · rw [hsame]
          exact hrestored k hkdone
        · rcases hrestored k hkdone with hkept | hdisturbed
          · -- `k` was right before `l` was written, so if it is wrong now, this has disturbed it.
            by_cases hafter : (W.reads w k).Restores (value k)
            · exact .inl hafter
            · exact .inr ⟨done, l, rest, u, u', w, happend.symm, hkdone, hdone, hkept, hdiffers,
                hread, hsame.works, congrFun hsame.reads k, hwrite, hafter⟩
          · exact .inr hdisturbed

end Engine.Writings

/-! ## Changes that are refused -/

/-- The world in which the table of an instance was put back, and values stored for properties that
were added since were dropped. -/
def World.tableBack (w : World β σ) (id : InstanceId) (table : PropertyTable) : World β σ :=
  { w with model := w.model.modify id fun i =>
    let added := i.properties.keys.filter (!table.contains ·)
    { i with
      dynamic := added.foldl Association.erase i.dynamic
      properties := table } }

theorem World.get?_tableBack (table : PropertyTable) (hi : w.model.arena.get? id = some i) :
    (w.tableBack id table).model.arena.get? id = some { i with
      dynamic := (i.properties.keys.filter (!table.contains ·)).foldl Association.erase i.dynamic
      properties := table } := by
  show (w.model.arena.modify id _).get? id = _
  rw [Arena.get?_modify_self, hi, Option.map_some]

namespace Engine.Writings

/-- **A change of a property that is refused**, of an instance whose properties can be written. -/
structure Refused (W : e.Writings id) (key : Symbol) (v : Value) extends
    BegunChange e id key v where
  /-- the world in which the change is refused -/
  failed : World β σ
  /-- the instance before the change -/
  before : Instance β
  /-- the instance when the change is refused -/
  now : Instance β
  accepted : Except ModelError Bool
  readable : W.works checked
  there : checked.model.arena.get? id = some before
  tried : (e.writeAndAsk id key v).outcome begun.starting = some (accepted, failed)
  refused : accepted ≠ .ok true
  survives : failed.model.arena.get? id = some now
  writable : W.works (failed.tableBack id before.properties)

namespace Refused

variable {W : e.Writings id} (c : W.Refused key v)

/-- A property that was restored and is disturbed afterwards, while values are written back. -/
def Disturbed (k : Symbol) : Prop :=
  W.Disturbs (W.reads c.checked) (c.failed.tableBack id c.before.properties)
    c.before.properties.keys k

/-- What was captured is what was read. -/
theorem captured_eq : c.captured = W.captured c.checked c.before := by
  obtain ⟨u, hcapture, -⟩ := W.exists_capture c.readable c.there
  exact Except.ok.inj (congrArg Prod.fst (Option.some.inj (c.capture.symm.trans hcapture)))

/-- **The values are written back**: each is read as before, or was disturbed. -/
theorem exists_restored :
    ∃ w, (e.restore id c.captured).outcome c.failed = some (.ok (), w) ∧ W.works w ∧
      w.table id = some c.before.properties ∧
      ∀ k ∈ c.before.properties.keys, (W.reads w k).Restores (W.reads c.checked k) ∨
        c.Disturbed k := by
  have htable : (c.failed.tableBack id c.before.properties).table id =
      some c.before.properties := by
    rw [World.table, World.get?_tableBack _ c.survives, Option.map_some]
  obtain ⟨w, hout, hworks, ht, hrestored⟩ := exists_restoreRest [] c.before.properties.keys
    (fun k hk => PropertyTable.mem_keys.mp hk) rfl c.writable htable nofun
  refine ⟨w, ?_, hworks, ht, hrestored⟩
  rw [c.captured_eq]
  unfold Engine.restore
  rw [outcome_bind_ok (outcome_update c.survives _)]
  exact hout

/-- **A refused change comes to an end**, if the type changes nothing when it is told.  Nothing that
can be read differs from when it was told. -/
theorem exists_final {w : World β σ} {noticed : Except ModelError Bool}
    (hrestored : (e.restore id c.captured).outcome c.failed = some (.ok (), w))
    (hnotice : (e.propsChanged id c.failed.model.changes.current false).outcome w =
      some (noticed, w')) (hworks : W.works w') :
    ∃ result final, (e.setProperty id key v).outcome c.asked = some (result, final) ∧
      W.works final ∧ W.reads final = W.reads w' := by
  have hroll := Engine.outcome_rollBack_noticed c.accepted hrestored hnotice
  have hset : ∀ {r u}, (e.rollBack id c.captured c.accepted >>= fun _ =>
      e.compare id c.captured).outcome c.failed = some (r, u) →
      (e.setProperty id key v).outcome c.asked = some (r, u.finishing) := fun hback =>
    c.outcome_setProperty ((Engine.outcome_applyChange c.tried c.refused).trans hback)
  -- Only a change without any error is compared with what was before.
  cases hresult : c.accepted.bind fun _ => noticed.map fun _ => () with
  | error err =>
    rw [hresult] at hroll
    obtain ⟨hfinal, hreads⟩ := W.changing hworks w'.model.changes.finish
    exact ⟨_, _, hset (outcome_bind_error hroll), hfinal, hreads⟩
  | ok _ =>
    rw [hresult] at hroll
    obtain ⟨i, hi⟩ := W.there hworks
    obtain ⟨u, _, -, hcompare, hcompared, hsame, -⟩ := W.exists_compare hworks hi c.captured
    obtain ⟨hfinal, hreads⟩ := W.changing hcompared u.model.changes.finish
    exact ⟨_, _, hset ((outcome_bind_ok hroll).trans hcompare), hfinal, hreads.trans hsame⟩

/-- **What becomes of the properties after a refused change** whose type changes nothing when it is
told. -/
theorem restored_unless_disturbed {L : Language β σ} {allowance : Nat}
    {W : (L.engine allowance).Writings id} (c : W.Refused key v) :
    (c.definition.kind.choiceMethod? = none → W.works c.asked → W.Same c.asked c.checked) ∧
    ∃ w, ((L.engine allowance).restore id c.captured).outcome c.failed = some (.ok (), w) ∧
      W.works w ∧ ∀ {noticed w'},
        ((L.engine allowance).propsChanged id c.failed.model.changes.current false).outcome w =
          some (noticed, w') →
        W.Same w w' → ∃ result final,
          (perform L (allowance + 1) (.setProperty id key v)).outcome c.asked =
            some (result, final) ∧
          W.works final ∧
          (∀ k ∈ c.before.properties.keys,
            (W.reads final k).Restores (W.reads c.checked k) ∨ c.Disturbed k) ∧
          (W.Forward c.before.properties.keys → ∀ k ∈ c.before.properties.keys,
            (W.reads final k).Restores (W.reads c.checked k)) := by
  constructor
  · intro hchoice hworks
    rw [Engine.eq_clearing_of_valid hchoice c.admitted]
    exact W.same_changing hworks _
  · obtain ⟨w, hrestored, hworks, -, hvalues⟩ := c.exists_restored
    refine ⟨w, hrestored, hworks, fun {noticed w'} hnotice hsame => ?_⟩
    obtain ⟨result, final, hout, hfinal, hreads⟩ :=
      c.exists_final hrestored hnotice hsame.works
    have hend : ∀ k ∈ c.before.properties.keys,
        (W.reads final k).Restores (W.reads c.checked k) ∨ c.Disturbed k := by
      rw [hreads, hsame.reads]
      exact hvalues
    refine ⟨result, final, hout, hfinal, hend, fun hforward k hk => ?_⟩
    exact (hend k hk).resolve_right (not_disturbs_of_forward hforward k)

end Refused

end Engine.Writings

/-! ## A slider that stays where it is -/

/-- Entries that are declared in presentation order need no sorting. -/
theorem PropertyTable.keys_of_ordered {t : PropertyTable}
    (h : t.entries.Pairwise fun a b => a.slot ≤ b.slot) : t.keys = t.entries.map (·.key) := by
  unfold keys
  rw [List.mergeSort_of_pairwise (h.imp decide_eq_true)]

namespace Slider

/-- The lower end of a slider. -/
def low : PropertyDef := { key := ⟨"low"⟩, name := "Low", kind := .int }

/-- The upper end of a slider. -/
def high : PropertyDef := { key := ⟨"high"⟩, name := "High", kind := .int }

/-- What the methods of a slider do. -/
inductive Code where
  | getLow
  | setLow
  | getHigh
  | setHigh
  | refuse
  deriving DecidableEq

/-- **The code of a slider**, which keeps both ends in a state of its own.  With the lower end the
upper one is moved to the same place, and every change is refused. -/
def language : Language Code (Value × Value) where
  method code call :=
    let v := call.args.head?.getD .void
    match code with
    | .getLow => .look fun _ ends => .pure ends.1
    | .setLow => .put (v, v) (.pure .void)
    | .getHigh => .look fun _ ends => .pure ends.2
    | .setHigh => .look fun _ ends => .put (ends.1, v) (.pure .void)
    | .refuse => .pure (.bool false)
  rule _ _ := .pure .accept
  evaluate _ _ _ := .pure ()
  inspect _ _ := .pure ()
  transformed _ _ _ host := host

/-- The methods of a slider. -/
def methods : List (Method Code) := [
  { name := Accessor.getter low.key, body := .getLow },
  { name := Accessor.setter low.key, body := .setLow },
  { name := Accessor.getter high.key, body := .getHigh },
  { name := Accessor.setter high.key, body := .setHigh },
  { name := Engine.propsChangedName, body := .refuse }]

/-- Builds a slider from one to two. -/
def build : Body Code (Value × Value) Unit := do
  let _ ← Program.call (Op.register { name := "Slider", methods })
  let slider ← Program.call (Op.instantiate "Slider" none "slider" [])
  let _ ← Program.call (Op.setupProperty slider low)
  let _ ← Program.call (Op.setupProperty slider high)
  Program.call (Op.writeProperty slider low.key (.int 1))
  Program.call (Op.writeProperty slider high.key (.int 2))

/-- The engine that runs the code of a slider. -/
abbrev engine : Engine Code (Value × Value) := language.engine 2

variable {w w' : World Code (Value × Value)} {i j : Instance Code}

/-- **A world with a slider.** -/
structure Ready (w : World Code (Value × Value)) (i : Instance Code) : Prop where
  there : w.model.arena.get? ⟨0, 0⟩ = some i
  keys : i.properties.keys = [low.key, high.key]
  products : w.model.products = {}
  finds : ∀ m ∈ methods, ∃ found, w.finds i.type m.name = some found ∧ found.2.arity = none ∧
    found.2.body = m.body

namespace Ready

theorem contains_iff (h : Ready w i) {key : Symbol} :
    i.properties.contains key = true ↔ key = low.key ∨ key = high.key := by
  rw [← PropertyTable.mem_keys, h.keys]
  simp

/-- Nothing else matters to a slider. -/
theorem of_same (h : Ready w i) (hj : w'.model.arena.get? ⟨0, 0⟩ = some j)
    (hkeys : j.properties.keys = i.properties.keys) (htype : j.type = i.type)
    (hproducts : w'.model.products = w.model.products)
    (hfinds : ∀ type name, w'.finds type name = w.finds type name) : Ready w' j := by
  refine ⟨hj, hkeys.trans h.keys, hproducts.trans h.products, fun m hm => ?_⟩
  rw [htype, hfinds]
  exact h.finds m hm

theorem lookingUp (h : Ready w i) (type : TypeId) (name : Symbol) :
    Ready (w.lookingUp type name) i := by
  have hagrees := World.Agrees.lookingUp w type name
  exact h.of_same (by rw [hagrees.model, h.there]) rfl rfl (by rw [hagrees.model]) hagrees.finds

/-- **A method is found**, and calling it runs its code. -/
theorem exists_method (h : Ready w i) {m : Method Code} (hm : m ∈ methods) (args : List Value) :
    ∃ owner m', w.finds i.type m.name = some (owner, m') ∧
      ∀ u, (engine.invoke m' (some ⟨0, 0⟩) args).outcome u =
        (engine.run (language.method m.body ⟨some ⟨0, 0⟩, args⟩)).outcome u := by
  obtain ⟨⟨owner, m'⟩, hfound, harity, hbody⟩ := h.finds m hm
  refine ⟨owner, m', hfound, fun u => ?_⟩
  rw [Engine.outcome_invoke harity, show m'.body = m.body from hbody]
  rfl

end Ready

/-- What is read of a slider. -/
def reads (w : World Code (Value × Value)) (key : Symbol) : Value :=
  if key = low.key then w.host.1 else if key = high.key then w.host.2 else .void

/-- What the ends are when one is written. -/
def written (ends : Value × Value) (key : Symbol) (v : Value) : Value × Value :=
  if key = low.key then (v, v) else (ends.1, v)

/-- **Reading an end** leaves nothing but a remembered lookup. -/
theorem exists_read (h : Ready w i) (key : Symbol) :
    ∃ w', (engine.getProperty ⟨0, 0⟩ key).outcome w = some (.ok (reads w key), w') ∧
      w.Agrees w' ∧ Ready w' i := by
  have hgetter : ∀ {m : Method Code}, m ∈ methods → m.name = Accessor.getter key →
      i.properties.contains key = true → (∀ u : World Code (Value × Value),
        (engine.run (language.method m.body ⟨some ⟨0, 0⟩, []⟩)).outcome u =
          some (.ok (reads u key), u)) →
      ∃ w', (engine.getProperty ⟨0, 0⟩ key).outcome w = some (.ok (reads w key), w') ∧
        w.Agrees w' ∧ Ready w' i := by
    intro m hm hname hdeclared hrun
    obtain ⟨owner, m', hfound, hcall⟩ := h.exists_method hm []
    have hagrees := World.Agrees.lookingUp w i.type (Accessor.getter key)
    refine ⟨_, ?_, hagrees, h.lookingUp _ _⟩
    rw [Engine.outcome_getProperty_of_getter h.there hdeclared (hname ▸ hfound), hcall, hrun]
    unfold reads
    rw [hagrees.host]
  by_cases hlow : key = low.key
  · subst hlow
    exact hgetter (m := { name := Accessor.getter low.key, body := .getLow }) (by simp [methods])
      rfl (h.contains_iff.mpr (.inl rfl)) fun _ => rfl
  by_cases hhigh : key = high.key
  · subst hhigh
    exact hgetter (m := { name := Accessor.getter high.key, body := .getHigh }) (by simp [methods])
      rfl (h.contains_iff.mpr (.inr rfl)) fun _ => rfl
  · have hundeclared : i.properties.contains key = false := by
      rw [Bool.eq_false_iff]
      exact fun hdeclared => (h.contains_iff.mp hdeclared).elim hlow hhigh
    refine ⟨w, ?_, .refl w, h⟩
    unfold Engine.getProperty reads
    rw [outcome_bind_ok (outcome_find h.there), hundeclared, if_neg hlow, if_neg hhigh]
    rfl

/-- **Writing an end.** -/
theorem exists_write (h : Ready w i) {key : Symbol}
    (hdeclared : i.properties.contains key = true) (v : Value) :
    ∃ w', (engine.writeProperty ⟨0, 0⟩ key v).outcome w = some (.ok (), w') ∧ Ready w' i ∧
      w'.host = written w.host key v := by
  have hsetter : ∀ {m : Method Code}, m ∈ methods → m.name = Accessor.setter key →
      (∀ u : World Code (Value × Value),
        (engine.run (language.method m.body ⟨some ⟨0, 0⟩, [v]⟩)).outcome u =
          some (.ok .void, { u with host := written u.host key v })) →
      ∃ w', (engine.writeProperty ⟨0, 0⟩ key v).outcome w = some (.ok (), w') ∧ Ready w' i ∧
        w'.host = written w.host key v := by
    intro m hm hname hrun
    obtain ⟨owner, m', hfound, hcall⟩ := h.exists_method hm [v]
    have hrecorded : Ready (w.recording key) i :=
      h.of_same h.there rfl rfl rfl fun _ _ => rfl
    let u := (w.recording key).lookingUp i.type (Accessor.setter key)
    have hlooked : Ready u i := hrecorded.lookingUp i.type (Accessor.setter key)
    have hhost : u.host = w.host :=
      (World.Agrees.lookingUp (w.recording key) i.type (Accessor.setter key)).host
    refine ⟨{ u with host := written u.host key v }, ?_,
      hlooked.of_same hlooked.there rfl rfl rfl fun _ _ => rfl, congrArg (written · key v) hhost⟩
    rw [Engine.outcome_writeProperty_of_setter h.there (hname ▸ hfound), outcome_bind, hcall, hrun]
    rfl
  rcases h.contains_iff.mp hdeclared with rfl | rfl
  · exact hsetter (m := { name := Accessor.setter low.key, body := .setLow }) (by simp [methods])
      rfl fun _ => rfl
  · exact hsetter (m := { name := Accessor.setter high.key, body := .setHigh }) (by simp [methods])
      rfl fun _ => rfl

/-- **The ends of a slider can be read and written.** -/
def writings : engine.Writings ⟨0, 0⟩ where
  works w := ∃ i, Ready w i
  reads := reads
  there := fun ⟨i, h⟩ => ⟨i, h.there⟩
  read := by
    rintro w ⟨i, h⟩ key
    obtain ⟨w', hread, hagrees, h'⟩ := exists_read h key
    refine ⟨w', hread, ⟨i, h'⟩, ?_, by rw [World.frame, hagrees.model, World.frame]⟩
    funext k
    unfold reads
    rw [hagrees.host]
  changing := fun ⟨i, h⟩ _ => ⟨⟨i, h.of_same h.there rfl rfl rfl fun _ _ => rfl⟩, rfl⟩
  marking := by
    rintro w ⟨i, h⟩
    have hmarked : (w.marking ⟨0, 0⟩).model.arena.get? ⟨0, 0⟩ =
        some { i with changed := true } := by
      show (w.model.arena.modify ⟨0, 0⟩ _).get? ⟨0, 0⟩ = _
      rw [Arena.get?_modify_self, h.there, Option.map_some]
    exact ⟨⟨_, h.of_same hmarked rfl rfl rfl fun _ _ => rfl⟩, rfl⟩
  write := by
    rintro w t ⟨i, h⟩ ht key hdeclared v
    obtain rfl : i.properties = t := by
      rw [World.table, h.there, Option.map_some] at ht
      exact Option.some.inj ht
    obtain ⟨w', hwrite, h', hhost⟩ := exists_write h hdeclared v
    refine ⟨w', hwrite, ⟨i, h'⟩, ?_, by rw [World.table, h'.there, Option.map_some]⟩
    unfold reads
    rw [hhost]
    rcases h.contains_iff.mp hdeclared with rfl | rfl <;> rfl

/-- Moving the upper end does not move the lower one, which is presented before it. -/
theorem forward : writings.Forward [low.key, high.key] := by
  rintro w w' k l v hordered ⟨i, h⟩ hwrite
  obtain ⟨rfl, rfl⟩ : k = low.key ∧ l = high.key := by
    simpa using hordered.eq_of_length rfl
  obtain ⟨u, hwritten, -, hhost⟩ := exists_write h (h.contains_iff.mpr (.inr rfl)) v
  obtain ⟨-, rfl⟩ := Prod.mk.inj (Option.some.inj (hwrite.symm.trans hwritten))
  show reads w' low.key = reads w low.key
  unfold reads
  rw [hhost]
  rfl

/-- A slider refuses every change. -/
theorem exists_told (h : Ready w i) (keys : List Symbol) (asking : Bool) :
    ∃ w', (engine.propsChanged ⟨0, 0⟩ keys asking).outcome w = some (.ok false, w') ∧
      writings.Same w w' := by
  obtain ⟨owner, m', hfound, hcall⟩ := h.exists_method
    (m := { name := Engine.propsChangedName, body := .refuse }) (by simp [methods])
    [.list (keys.map .symbol), .int (if asking then 1 else 0)]
  have hagrees := World.Agrees.lookingUp w i.type Engine.propsChangedName
  refine ⟨w.lookingUp i.type Engine.propsChangedName, ?_, ⟨i, h.lookingUp _ _⟩, ?_, ?_⟩
  · unfold Engine.propsChanged
    rw [outcome_bind_ok (outcome_typeOf h.there), outcome_bind_ok (outcome_findMethod _ _), hfound]
    dsimp only
    rw [outcome_bind, hcall]
    rfl
  · funext k
    show reads _ k = reads _ k
    unfold reads
    rw [hagrees.host]
  · rw [World.frame, hagrees.model, World.frame]

/-- A slider has no product data. -/
theorem Ready.productDataOf_eq (h : Ready w i) : w.model.productDataOf ⟨0, 0⟩ = .ok none := by
  have hfind : w.model.arena.find ⟨0, 0⟩ = .ok i := by rw [Arena.find, h.there]
  obtain ⟨program, hprogram⟩ : ∃ program, w.model.programOf ⟨0, 0⟩ = .ok program := by
    unfold Model.programOf
    rw [hfind]
    cases hprogram : i.program with
    | none => exact ⟨_, by simp only [bind, Except.bind, hprogram]; rfl⟩
    | some program => exact ⟨_, by simp only [bind, Except.bind, hprogram]; rfl⟩
  unfold Model.productDataOf
  rw [hprogram, h.products]
  rfl

/-- **Writing and asking** is refused. -/
theorem exists_tried (h : Ready w i) {key : Symbol}
    (hdeclared : i.properties.contains key = true) (v : Value) :
    ∃ w', (engine.writeAndAsk ⟨0, 0⟩ key v).outcome w = some (.ok false, w') ∧
      writings.works w' := by
  obtain ⟨w₁, hwrite, h₁, -⟩ := exists_write h hdeclared v
  obtain ⟨w₂, htold, hsame⟩ := exists_told h₁ w₁.model.changes.current true
  refine ⟨w₂, ?_, hsame.works⟩
  have hask : (ask (·.productDataOf ⟨0, 0⟩) : Action Code (Value × Value) _).outcome w₁ =
      some (.ok none, w₁) := by
    show (Action.ofExcept (w₁.model.productDataOf ⟨0, 0⟩) : Action Code (Value × Value) _).outcome
      w₁ = _
    rw [h₁.productDataOf_eq]
    rfl
  have hpropagate : (engine.propagate ⟨0, 0⟩ key).outcome w₁ = some (.ok (), w₁) := by
    unfold Engine.propagate
    rw [outcome_bind_ok hask]
    rfl
  have hkeys : (currentKeys : Action Code (Value × Value) _).outcome w₁ =
      some (.ok w₁.model.changes.current, w₁) := rfl
  unfold Engine.writeAndAsk
  rw [outcome_bind_ok hwrite, outcome_bind_ok hpropagate, outcome_bind_ok hkeys, htold]

/-- **An attempt to move the lower end** of a slider is refused. -/
theorem exists_refused {asked checked : World Code (Value × Value)} {d : PropertyDef}
    (h : Ready asked i) (hd : i.properties.get? low.key = some d) (henabled : d.state ≠ .disabled)
    (hchoice : d.kind.choiceMethod? = none)
    (hvalid : (engine.validate ⟨0, 0⟩ d (.int 5)).outcome asked.clearing = some (.ok (), checked)) :
    ∃ c : writings.Refused low.key (.int 5), c.asked = asked ∧ c.definition = d ∧
      c.before.properties.keys = [low.key, high.key] := by
  have hclearing : Ready asked.clearing i := h.of_same h.there rfl rfl rfl fun _ _ => rfl
  obtain rfl : checked = asked.clearing := Engine.eq_clearing_of_valid hchoice hvalid
  obtain ⟨begun, hcapture, hsame⟩ := writings.exists_capture ⟨i, hclearing⟩ hclearing.there
  obtain ⟨j, hbegun⟩ := hsame.works
  have hstarting : Ready begun.starting j := hbegun.of_same hbegun.there rfl rfl rfl fun _ _ => rfl
  obtain ⟨failed, htried, k, hfailed⟩ :=
    exists_tried hstarting (hstarting.contains_iff.mpr (.inl rfl)) (.int 5)
  have hback : writings.works (failed.tableBack ⟨0, 0⟩ i.properties) :=
    ⟨_, hfailed.of_same (World.get?_tableBack i.properties hfailed.there)
      (h.keys.trans hfailed.keys.symm) rfl rfl fun _ _ => rfl⟩
  exact ⟨{
    asked, checked := asked.clearing, begun, definition := d
    captured := writings.captured asked.clearing i
    declared := ⟨i, h.there, hd⟩, enabled := henabled, admitted := hvalid
    capture := hcapture, failed, before := i, now := k, accepted := .ok false
    readable := ⟨i, hclearing⟩, there := hclearing.there, tried := htried, refused := by simp
    survives := hfailed.there, writable := hback }, rfl, rfl, h.keys⟩

/-- A slider from one to two. -/
theorem exists_ready :
    ∃ asked i d checked, Ready asked i ∧ asked.host = (.int 1, .int 2) ∧
      i.properties.get? low.key = some d ∧ d.state ≠ .disabled ∧ d.kind.choiceMethod? = none ∧
      (engine.validate ⟨0, 0⟩ d (.int 5)).outcome asked.clearing = some (.ok (), checked) := by
  have hrun : ((Body.exec language 3 build).outcome { host := (.void, .void) }).any (fun built =>
      built.2.model.products.entries.isEmpty &&
      built.2.host.1.same (.int 1) && built.2.host.2.same (.int 2) &&
      (built.2.model.arena.get? ⟨0, 0⟩).any fun i =>
        i.properties.entries.Pairwise (fun a b => a.slot ≤ b.slot) &&
        i.properties.entries.map (·.key) = [low.key, high.key] &&
        (methods.all fun m => (built.2.finds i.type m.name).any fun found =>
          found.2.arity = none && found.2.body = m.body) &&
        (i.properties.get? low.key).any fun d =>
          d.state ≠ .disabled && d.kind.choiceMethod? = none &&
          ((engine.validate ⟨0, 0⟩ d (.int 5)).outcome built.2.clearing).any (·.1.isOk)) =
        true := by
    decide +kernel
  simp only [Option.any_eq_true, Bool.and_eq_true, decide_eq_true_eq, Prod.exists,
    List.all_eq_true, List.isEmpty_iff] at hrun
  obtain ⟨_, asked, -, ⟨⟨hproducts, hlow⟩, hhigh⟩, i, hi, ⟨⟨hslots, hkeys⟩, hmethods⟩, d, hd,
    ⟨henabled, hchoice⟩, valid, checked, hvalid, hok⟩ := hrun
  obtain _ | _ := valid
  · cases hok
  refine ⟨asked, i, d, checked, ⟨hi, ?_, ?_, ?_⟩, ?_, hd, henabled, hchoice, hvalid⟩
  · rw [PropertyTable.keys_of_ordered hslots, hkeys]
  · exact congrArg Association.mk hproducts
  · intro m hm
    obtain ⟨owner, m', hfound, harity, hbody⟩ := hmethods m hm
    exact ⟨(owner, m'), hfound, harity, hbody⟩
  · exact Prod.ext (Value.eq_of_same hlow rfl) (Value.eq_of_same hhigh rfl)

end Slider

namespace Engine.Writings.Refused

/-- A slider from one to two refuses to be moved up.  Moving its lower end had moved the upper one
along; afterwards both are where they were. -/
theorem restored_unless_disturbed_slider :
    ∃ c : Slider.writings.Refused Slider.low.key (.int 5),
      Slider.writings.reads c.asked Slider.low.key = .int 1 ∧
      Slider.writings.reads c.asked Slider.high.key = .int 2 ∧
      Slider.writings.Forward c.before.properties.keys ∧
      ∃ result final,
        (perform Slider.language 3 (.setProperty ⟨0, 0⟩ Slider.low.key (.int 5))).outcome c.asked =
          some (result, final) ∧
        Slider.writings.reads final Slider.low.key = .int 1 ∧
        Slider.writings.reads final Slider.high.key = .int 2 := by
  obtain ⟨asked, i, d, checked, hready, hends, hd, henabled, hchoice, hvalid⟩ :=
    Slider.exists_ready
  obtain ⟨c, rfl, rfl, hkeys⟩ := Slider.exists_refused hready hd henabled hchoice hvalid
  obtain ⟨hquiet, w, -, ⟨j, hw⟩, hend⟩ :=
    @restored_unless_disturbed _ _ _ _ _ Slider.language 2 _ c
  obtain ⟨w', htold, hsame⟩ := Slider.exists_told hw c.failed.model.changes.current false
  obtain ⟨result, final, hout, -, -, hrestored⟩ := hend htold hsame
  have hforward : Slider.writings.Forward c.before.properties.keys := by
    rw [hkeys]
    exact Slider.forward
  have hlow : Slider.writings.reads c.asked Slider.low.key = .int 1 := congrArg Prod.fst hends
  have hhigh : Slider.writings.reads c.asked Slider.high.key = .int 2 := congrArg Prod.snd hends
  have hchecked := (hquiet hchoice ⟨i, hready⟩).reads
  have hexact : ∀ {k n}, k ∈ c.before.properties.keys →
      Slider.writings.reads c.asked k = .int n → Slider.writings.reads final k = .int n := by
    intro k n hk hbefore
    have hvalue := hrestored hforward k hk
    rw [hchecked, hbefore] at hvalue
    exact hvalue.elim id fun hsame => Value.eq_of_same hsame rfl
  refine ⟨c, hlow, hhigh, hforward, result, final, hout, hexact ?_ hlow, hexact ?_ hhigh⟩ <;>
    simp [hkeys]

end Engine.Writings.Refused

end ProductModel
