import ProductModel.Proofs.AttributesRestored

/-!
# Attributes that are set

Reading and setting an attribute go different ways.  Reading asks the children first, then what is
stored beside the fields, then the declared fields.  Setting writes the declared field if there is
one, and else stores the value beside the fields.  `Language.attribute_written` says what reading
gives after setting, for every name and every instance:

* The name that was set has the new value, unless something hides it.
* A child of that name hides it.
* A value that is stored beside the fields hides the declared field of its name.  Values get there
  by the properties, so this happens to a property that bears the name of a field.  The field is
  set all the same.
* No other name is concerned, and no other instance.

## Design

What reading gives is `World.attr`.  It depends on the instance through its fields and what is
stored, and on the world through types, links and names, which setting leaves alone
(`Arena.AlikeInTree`).
-/

namespace ProductModel

open ProductModel.Action

variable {β σ : Type}

/-! ## What setting leaves alone -/

namespace Instance

/-- The parts of an instance that say where it is and how it is named. -/
def place (i : Instance β) : Option InstanceId × List InstanceId × String × Option String :=
  (i.father, i.children, i.localName, i.memo)

variable (i : Instance β) {name other : Symbol} (v : Value)

theorem place_setAttribute : (i.setAttribute name v).place = i.place := by
  unfold setAttribute
  split <;> rfl

theorem type_setAttribute : (i.setAttribute name v).type = i.type := by
  unfold setAttribute
  split <;> rfl

theorem fields_setAttribute_of_ne (h : other ≠ name) :
    (i.setAttribute name v).fields.get? other = i.fields.get? other := by
  unfold setAttribute
  split
  · exact Association.get?_insert_of_ne _ h v
  · rfl

theorem dynamic_setAttribute_of_ne (h : other ≠ name) :
    (i.setAttribute name v).dynamic.get? other = i.dynamic.get? other := by
  unfold setAttribute
  split
  · rfl
  · exact Association.get?_insert_of_ne _ h v

variable {i}

/-- A declared field is written. -/
theorem setAttribute_of_field {u : Value} (h : i.fields.get? name = some u) :
    (i.setAttribute name v).fields.get? name = some v ∧
      (i.setAttribute name v).dynamic = i.dynamic := by
  have hdeclared : i.fields.contains name = true := by
    rw [Association.contains, h]
    rfl
  rw [setAttribute, if_pos hdeclared]
  exact ⟨Association.get?_insert_self _ _ _, rfl⟩

/-- What is no declared field is stored beside them. -/
theorem setAttribute_of_no_field (h : i.fields.get? name = none) :
    (i.setAttribute name v).dynamic.get? name = some v := by
  have hundeclared : ¬i.fields.contains name = true := by
    rw [Association.contains, h]
    exact Bool.false_ne_true
  rw [setAttribute, if_neg hundeclared]
  exact Association.get?_insert_self _ _ _

end Instance

section Results

variable {ε γ δ : Type} {r r' : Except ε γ} {part : γ → δ}

/-- Where one result is an error, so is the other. -/
theorem map_eq_error {err : ε} (h : r'.map part = r.map part) (hr : r = .error err) :
    r' = .error err := by
  cases r' <;> simp_all [Except.map]

/-- Where one result is there, so is the other, with the same part. -/
theorem map_eq_ok {c : γ} (h : r'.map part = r.map part) (hr : r = .ok c) :
    ∃ c', r' = .ok c' ∧ part c' = part c := by
  cases r' <;> simp_all [Except.map]

end Results

namespace Arena

variable {a b : Arena β} {x : InstanceId}

/-- **Alike in all that the tree and the names are made of.** -/
structure AlikeInTree (a b : Arena β) : Prop where
  size : b.slots.length = a.slots.length
  place : ∀ x, (b.get? x).map Instance.place = (a.get? x).map Instance.place

namespace AlikeInTree

/-- A change of an instance in other parts. -/
theorem modify {f : Instance β → Instance β} (hf : ∀ i, (f i).place = i.place) (id : InstanceId) :
    AlikeInTree a (a.modify id f) :=
  ⟨length_slots_modify f, fun x => by
    rw [get?_modify]
    split
    · rename_i hx
      rw [hx, Option.map_map]
      exact Option.map_congr fun i _ => hf i
    · rfl⟩

/-- A part of the place of an instance. -/
theorem map_place (h : AlikeInTree a b) {γ : Type}
    (part : Option InstanceId × List InstanceId × String × Option String → γ) (x : InstanceId) :
    (b.get? x).map (part ∘ Instance.place) = (a.get? x).map (part ∘ Instance.place) := by
  rw [← Option.map_map, h.place, Option.map_map]

theorem childNamed (h : AlikeInTree a b) (x : InstanceId) (name : String) :
    b.childNamed x name = a.childNamed x name := by
  have hchildren : b.childrenOf x = a.childrenOf x :=
    congrArg (·.getD []) (h.map_place (·.2.1) x)
  have hname : ∀ y, b.localName? y = a.localName? y := h.map_place (·.2.2.1)
  unfold Arena.childNamed Arena.findNamed
  rw [hchildren]
  simp only [hname]

/-- The absolute name that is made is the same, whatever is remembered on the way. -/
theorem nameTo (h : AlikeInTree a b) (limit : Nat) (x : InstanceId) :
    (b.nameTo limit x).map (·.1) = (a.nameTo limit x).map (·.1) := by
  induction limit generalizing x with
  | zero => rfl
  | succ limit ih =>
    unfold Arena.nameTo Arena.find
    cases hi : a.get? x with
    | none =>
      have hj : b.get? x = none := by simpa [hi] using h.place x
      rw [hj]
      rfl
    | some i =>
      obtain ⟨j, hj, hplace⟩ := exists_get?_of_map_eq (h.place x) hi
      have hfather : j.father = i.father := congrArg (·.1) hplace
      have hname : j.localName = i.localName := congrArg (·.2.2.1) hplace
      have hmemo : j.memo = i.memo := congrArg (·.2.2.2) hplace
      rw [hj]
      simp only [bind, Except.bind, hfather, hname, hmemo]
      cases i.memo with
      | some memo => rfl
      | none =>
        cases i.father with
        | none => rfl
        | some father =>
          dsimp only
          -- The name of the father is made in the same way, so both fail or both give it.
          have hup := ih father
          cases ha : a.nameTo limit father with
          | error err =>
            rw [map_eq_error hup ha]
          | ok above =>
            obtain ⟨above', hb, habove⟩ := map_eq_ok hup ha
            rw [hb]
            exact congrArg (fun name => Except.ok (name ++ "." ++ i.localName)) habove

theorem describe (h : AlikeInTree a b) (x : InstanceId) : (b.describe x).1 = (a.describe x).1 := by
  have hname := h.nameTo (a.depthLimit + 1) x
  unfold Arena.describe Arena.absoluteName
  rw [show b.depthLimit = a.depthLimit from h.size]
  cases ha : a.nameTo (a.depthLimit + 1) x with
  | error err =>
    rw [map_eq_error hname ha]
  | ok made =>
    obtain ⟨made', hb, hmade⟩ := map_eq_ok hname ha
    rw [hb]
    exact hmade

end AlikeInTree

end Arena

/-! ## What reading gives -/

section Reading

variable {w w' : World β σ} {x id : InstanceId} {i j : Instance β} {name other : Symbol} {v : Value}

/-- **What asking for an attribute gives**: its value, or an error. -/
def World.attr (w : World β σ) (x : InstanceId) (name : Symbol) :
    Option (Except ModelError Value) :=
  ((getAttr x name : Action β σ Value).outcome w).map (·.1)

theorem World.attr_eq (hi : w.model.arena.get? x = some i) (name : Symbol) :
    w.attr x name = some (w.answer x i name (i.dynamic.get? name)) := by
  obtain ⟨w', hget⟩ := exists_getAttr hi name
  rw [World.attr, hget]
  rfl

/-- An instance that is gone has no attributes. -/
theorem World.attr_of_absent (hi : w.model.arena.get? x = none) (name : Symbol) :
    w.attr x name = some (.error (Arena.destroyedError x)) := by
  have hfind : (find x : Action β σ (Instance β)).outcome w =
      some (.error (Arena.destroyedError x), w) := by
    show (Action.ofExcept (w.model.arena.find x) : Action β σ _).outcome w = _
    rw [Arena.find, hi]
    rfl
  have hresolve : (resolve x name : Action β σ (Attribute β)).outcome w =
      some (.error (Arena.destroyedError x), w) := by
    unfold resolve
    exact outcome_bind_error hfind
  rw [World.attr, getAttr, outcome_bind_error hresolve]
  rfl

/-- A child hides all that bears its name. -/
theorem World.answer_of_child {child : InstanceId}
    (h : w.model.arena.childNamed x name.label = some child) (slot : Option Value) :
    w.answer x i name slot = .ok (.ref child) := by
  unfold World.answer World.attribute?
  rw [h]
  rfl

/-- What is stored is told, unless a child bears its name. -/
theorem World.answer_of_slot (h : w.model.arena.childNamed x name.label = none) (v : Value) :
    w.answer x i name (some v) = .ok v := by
  unfold World.answer World.attribute?
  rw [h]
  rfl

/-- A declared field is told if nothing else bears its name. -/
theorem World.answer_of_field (h : w.model.arena.childNamed x name.label = none)
    (hfield : i.fields.get? name = some v) : w.answer x i name none = .ok v := by
  unfold World.answer World.attribute?
  rw [h, hfield]
  rfl

/-! ## Reading after setting -/

/-- The world after an attribute was set. -/
def World.setting (w : World β σ) (id : InstanceId) (name : Symbol) (v : Value) : World β σ :=
  { w with model := w.model.modify id (·.setAttribute name v) }

theorem World.alike_setting (w : World β σ) (id : InstanceId) (name : Symbol) (v : Value) :
    w.model.arena.AlikeInTree (w.setting id name v).model.arena :=
  .modify (fun i => i.place_setAttribute v) id

theorem World.get?_setting (hi : w.model.arena.get? id = some i) (name : Symbol) (v : Value) :
    (w.setting id name v).model.arena.get? id = some (i.setAttribute name v) := by
  show (w.model.arena.modify id _).get? id = _
  rw [Arena.get?_modify_self, hi]
  rfl

/-- **A name that was not set has the same answer.** -/
theorem World.answer_setting (hfields : j.fields.get? other = i.fields.get? other)
    (htype : j.type = i.type) (slot : Option Value) :
    (w.setting id name v).answer x j other slot = w.answer x i other slot := by
  have halike := w.alike_setting id name v
  unfold World.answer World.attribute?
  rw [halike.childNamed, halike.describe, hfields, htype]
  rfl

theorem World.attr_setting_of_ne (hne : x ≠ id ∨ other ≠ name) :
    (w.setting id name v).attr x other = w.attr x other := by
  by_cases hx : x = id
  · have hname : other ≠ name := hne.resolve_left (fun h => h hx)
    subst hx
    cases hi : w.model.arena.get? x with
    | none =>
      have hj : (w.setting x name v).model.arena.get? x = none := by
        show (w.model.arena.modify x _).get? x = _
        rw [Arena.get?_modify_self, hi]
        rfl
      rw [World.attr_of_absent hi, World.attr_of_absent hj]
    | some i =>
      rw [World.attr_eq hi, World.attr_eq (World.get?_setting hi name v),
        i.dynamic_setAttribute_of_ne v hname,
        World.answer_setting (i.fields_setAttribute_of_ne v hname) (i.type_setAttribute v)]
  · have hsame : (w.setting id name v).model.arena.get? x = w.model.arena.get? x :=
      Arena.get?_modify_of_ne hx _
    cases hi : w.model.arena.get? x with
    | none => rw [World.attr_of_absent hi, World.attr_of_absent (hsame.trans hi)]
    | some i => rw [World.attr_eq hi, World.attr_eq (hsame.trans hi), World.answer_setting rfl rfl]

/-- **What becomes of the attributes when one is set** on an instance. -/
structure World.AttributeWritten (w w' : World β σ) (id : InstanceId) (i : Instance β)
    (name : Symbol) (v : Value) : Prop where
  /-- it is told -/
  told : w.model.arena.childNamed id name.label = none →
    i.fields.get? name = none ∨ i.dynamic.get? name = none → w'.attr id name = some (.ok v)
  /-- a value that is stored beside the field of its name goes on to hide it -/
  hidden : ∀ {field stored}, w.model.arena.childNamed id name.label = none →
    i.fields.get? name = some field → i.dynamic.get? name = some stored →
      w.attr id name = some (.ok stored) ∧ w'.attr id name = some (.ok stored) ∧
        ∃ j, w'.model.arena.get? id = some j ∧ j.fields.get? name = some v
  /-- a child of its name goes on to hide it -/
  child : ∀ {child}, w.model.arena.childNamed id name.label = some child →
    w.attr id name = some (.ok (.ref child)) ∧ w'.attr id name = some (.ok (.ref child))
  /-- all else is as before -/
  others : ∀ {x other}, x ≠ id ∨ other ≠ name → w'.attr x other = w.attr x other

theorem World.attributeWritten (hi : w.model.arena.get? id = some i) :
    w.AttributeWritten (w.setting id name v) id i name v := by
  have hj := World.get?_setting hi name v
  have hchild := (w.alike_setting id name v).childNamed id name.label
  refine ⟨fun hnone hfree => ?_, fun {field stored} hnone hfield hstored => ?_,
    fun {child} hsome => ?_, World.attr_setting_of_ne⟩
  · rw [World.attr_eq hj]
    cases hfield : i.fields.get? name with
    | none =>
      rw [Instance.setAttribute_of_no_field v hfield, World.answer_of_slot (hchild.trans hnone)]
    | some field =>
      have hunset : i.dynamic.get? name = none :=
        hfree.resolve_left fun h => nomatch hfield.symm.trans h
      obtain ⟨hwritten, hdynamic⟩ := Instance.setAttribute_of_field v hfield
      rw [hdynamic, hunset, World.answer_of_field (hchild.trans hnone) hwritten]
  · obtain ⟨hwritten, hdynamic⟩ := Instance.setAttribute_of_field v hfield
    refine ⟨?_, ?_, _, hj, hwritten⟩
    · rw [World.attr_eq hi, hstored, World.answer_of_slot hnone]
    · rw [World.attr_eq hj, hdynamic, hstored, World.answer_of_slot (hchild.trans hnone)]
  · exact ⟨by rw [World.attr_eq hi, World.answer_of_child hsome],
      by rw [World.attr_eq hj, World.answer_of_child (hchild.trans hsome)]⟩

end Reading

/-! ## A field and a property of one name -/

namespace Canvas

/-- The width of a canvas. -/
def width : PropertyDef := { key := ⟨"width"⟩, name := "Width", kind := .int }

/-- The language without code. -/
def language : Language Unit Unit where
  method _ _ := .pure .void
  rule _ _ := .pure .accept
  evaluate _ _ _ := .pure ()
  inspect _ _ := .pure ()
  transformed _ _ _ host := host

/-- Builds a canvas whose field is hidden by a property of its name. -/
def build : Body Unit Unit Unit := do
  let _ ← Program.call (Op.register
    { name := "Canvas", fields := [{ name := width.key, init := .int 1 }] })
  let canvas ← Program.call (Op.instantiate "Canvas" none "canvas" [])
  let _ ← Program.call (Op.setupProperty canvas width)
  Program.call (Op.writeProperty canvas width.key (.int 5))

/-- **A canvas with two widths.** -/
theorem exists_hidden : ∃ (w : World Unit Unit) (i : Instance Unit), Reachable [] w.model ∧
    w.model.arena.get? ⟨0, 0⟩ = some i ∧ i.state = .live ∧
    (∀ name, w.model.arena.childNamed ⟨0, 0⟩ name = none) ∧
    i.fields.get? ⟨"color"⟩ = none ∧ i.fields.get? width.key = some (.int 1) ∧
    i.dynamic.get? width.key = some (.int 5) := by
  have hrun : ((Body.exec language 2 build).outcome { host := () }).any (fun built =>
      (built.2.model.arena.get? ⟨0, 0⟩).any fun i => i.state = .live && i.children = [] &&
        (i.fields.get? ⟨"color"⟩).isNone && (i.fields.get? width.key).any (·.same (.int 1)) &&
        (i.dynamic.get? width.key).any (·.same (.int 5))) = true := by
    decide +kernel
  simp only [Option.any_eq_true, Bool.and_eq_true, decide_eq_true_eq, Prod.exists,
    Option.isNone_iff_eq_none] at hrun
  obtain ⟨_, w, hbuilt, i, hi, ⟨⟨⟨hlive, hchildren⟩, hcolor⟩, one, hfield, hone⟩, five, hslot,
    hfive⟩ := hrun
  obtain rfl := Value.eq_of_same hone rfl
  obtain rfl := Value.eq_of_same hfive rfl
  refine ⟨w, i, (Reachable.empty rfl rfl).after_exec hbuilt, hi, hlive, fun name => ?_, hcolor,
    hfield, hslot⟩
  rw [Arena.childNamed, Arena.childrenOf_eq hi, hchildren]
  rfl

end Canvas

/-- **Setting an attribute** of an instance that is there succeeds.  The attribute is told
afterwards, unless a child of its name hides it or a value that is stored beside a declared field of
its name; and no other name of this or another instance is told otherwise than before. -/
theorem Language.attribute_written (L : Language β σ) (n : Nat) {w : World β σ} {id : InstanceId}
    {i : Instance β} (hi : w.model.arena.get? id = some i) (name : Symbol) (v : Value) :
    ∃ w', (perform L (n + 1) (.setAttr id name v)).outcome w = some (.ok (), w') ∧
      w.AttributeWritten w' id i name v :=
  ⟨w.setting id name v, outcome_update hi _, World.attributeWritten hi⟩

/-- A canvas gets a color, which is told, and then another width, which is not: the width that is
stored goes on to hide the field. -/
theorem Language.attribute_written_canvas :
    ∃ (w w₁ w₂ : World Unit Unit) (i : Instance Unit), w.model.arena.get? ⟨0, 0⟩ = some i ∧
      (perform Canvas.language 1 (.setAttr ⟨0, 0⟩ ⟨"color"⟩ (.str "red"))).outcome w =
        some (.ok (), w₁) ∧
      w₁.attr ⟨0, 0⟩ ⟨"color"⟩ = some (.ok (.str "red")) ∧
      w₁.attr ⟨0, 0⟩ Canvas.width.key = some (.ok (.int 5)) ∧
      (perform Canvas.language 1 (.setAttr ⟨0, 0⟩ Canvas.width.key (.int 9))).outcome w =
        some (.ok (), w₂) ∧
      w₂.attr ⟨0, 0⟩ Canvas.width.key = some (.ok (.int 5)) := by
  obtain ⟨w, i, -, hi, -, hchild, hcolor, hfield, hslot⟩ := Canvas.exists_hidden
  obtain ⟨w₁, hset₁, hwritten₁⟩ :=
    Language.attribute_written Canvas.language 0 hi ⟨"color"⟩ (.str "red")
  obtain ⟨w₂, hset₂, hwritten₂⟩ :=
    Language.attribute_written Canvas.language 0 hi Canvas.width.key (.int 9)
  obtain ⟨htold, htold₂, -⟩ := hwritten₂.hidden (hchild _) hfield hslot
  refine ⟨w, w₁, w₂, i, hi, hset₁, hwritten₁.told (hchild _) (.inl hcolor), ?_, hset₂, htold₂⟩
  rw [hwritten₁.others (.inr (by decide)), htold]

/-- **A live instance can have its attribute set and tell another value**: the field is hidden. -/
theorem Language.written_untold :
    ∃ (w w' : World Unit Unit) (i : Instance Unit), Reachable [] w.model ∧
      w.model.arena.get? ⟨0, 0⟩ = some i ∧ i.state = .live ∧
      w.model.arena.childNamed ⟨0, 0⟩ Canvas.width.key.label = none ∧
      (perform Canvas.language 1 (.setAttr ⟨0, 0⟩ Canvas.width.key (.int 9))).outcome w =
        some (.ok (), w') ∧
      w'.attr ⟨0, 0⟩ Canvas.width.key ≠ some (.ok (.int 9)) := by
  obtain ⟨w, i, hw, hi, hlive, hchild, -, hfield, hslot⟩ := Canvas.exists_hidden
  obtain ⟨-, htold, -⟩ := (World.attributeWritten (v := .int 9) hi).hidden (hchild _) hfield hslot
  refine ⟨w, _, i, hw, hi, hlive, hchild _, outcome_update hi _, fun heq => ?_⟩
  rw [World.setting] at htold
  have hsame := htold.symm.trans heq
  simp only [Option.some.injEq, Except.ok.injEq, Value.int.injEq] at hsame
  exact absurd hsame (by decide)

end ProductModel
