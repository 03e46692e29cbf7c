import ProductModel.Proofs.Arena.Preorder
import ProductModel.Proofs.Run.Bodies
import ProductModel.Showroom

/-!
# Boxes of subtrees

The box of an instance lies in the frame of the instance itself, so each child's box has to be
moved into the frame of its father on the way up: once for every step, by the position of the child.
Moved once too often, by the position of the top, or once too seldom, a box still looks right in a
flat tree at the origin.

`Arena.Boxed` says what the box is by the tree alone, without a bound that may cut the walk short
and without a word about handles that nothing stands at.  It leaves no choice, and in a forest it is
what the bounded walk comes to (`Forest.boxed_localBounds`).

What a box depends on is `Arena.AlikeBelow`: the children and the attached boxes of what lies under
the instance, and the positions of what lies below it.  The instance's own position is not among
them, nor are rotations (`Boxed.congr`).  `Body.Sighted.boxed` puts the two together, for any two
moments of any two runs.
-/

namespace ProductModel

namespace Bounds

/-- The box around what is boxed so far and one box more, where there is one. -/
def around : Option Bounds → Option Bounds → Option Bounds
  | box, none => box
  | none, some placed => some placed
  | some box, some placed => some (box.union placed)

@[simp] theorem around_eq_none_iff {box placed : Option Bounds} :
    around box placed = none ↔ box = none ∧ placed = none := by
  cases box <;> cases placed <;> simp [around]

/-- Nothing is boxed only if there was nothing to box. -/
theorem foldl_around_eq_none_iff {boxes : List (Option Bounds)} {box : Option Bounds} :
    boxes.foldl around box = none ↔ box = none ∧ ∀ placed ∈ boxes, placed = none := by
  induction boxes generalizing box with
  | nil => simp
  | cons placed boxes ih => simp [ih, and_assoc]

end Bounds

namespace Arena

variable {β γ : Type} {a : Arena β} {b : Arena γ} {x y c : InstanceId} {i : Instance β}
  {box box' : Option Bounds}

/-- The position of an instance in the frame of its father. -/
def positionOf (a : Arena β) (id : InstanceId) : Vec3 := ((a.get? id).map (·.position)).getD .zero

/-- **The box around the geometry of a subtree**, in the frame of its top: the instance's own box,
and then those of its children, each moved by the position of the child. -/
inductive Boxed (a : Arena β) : InstanceId → Option Bounds → Prop
  | node {x : InstanceId} {i : Instance β} (inner : InstanceId → Option Bounds) :
      a.get? x = some i →
      (∀ c ∈ i.children, Boxed a c (inner c)) →
      Boxed a x ((i.children.map fun c => (inner c).map (·.offset (a.positionOf c))).foldl
        Bounds.around (i.geometry.map (·.bounds)))

/-- One level of the bounded walk. -/
theorem boundsTo_succ (hi : a.get? x = some i) (limit : Nat) :
    a.boundsTo (limit + 1) x =
      (i.children.map fun c => (a.boundsTo limit c).map (·.offset (a.positionOf c))).foldl
        Bounds.around (i.geometry.map (·.bounds)) := by
  simp only [boundsTo, hi, List.foldl_map]
  congr 1
  funext box c
  cases a.boundsTo limit c with
  | none => rfl
  | some inner => cases box <;> rfl

namespace Boxed

/-- What has a box is there. -/
theorem present (h : a.Boxed x box) : ∃ i, a.get? x = some i := by
  cases h with
  | node _ hi _ => exact ⟨_, hi⟩

/-- The tree leaves no choice. -/
theorem unique (h : a.Boxed x box) (h' : a.Boxed x box') : box = box' := by
  induction h generalizing box' with
  | node inner hi _ ih =>
    cases h' with
    | node inner' hi' h' =>
      rw [hi] at hi'
      cases hi'
      rw [List.map_congr_left fun c hc => by rw [ih c hc (h' c hc)]]

/-- **There is no box only if nothing under the instance has geometry.** -/
theorem eq_none_iff (h : a.Boxed x box) :
    box = none ↔ ∀ y, a.Under x y → ∀ j, a.get? y = some j → j.geometry = none := by
  induction h with
  | @node x i inner hi _ ih =>
    simp only [Bounds.foldl_around_eq_none_iff, Option.map_eq_none_iff, List.forall_mem_map]
    constructor
    · rintro ⟨hown, hinner⟩ y hy j hj
      rcases hy.eq_or_child with rfl | ⟨c, hc, hcy⟩
      · rw [hi] at hj
        cases hj
        exact hown
      · rw [childrenOf_eq hi] at hc
        exact (ih c hc).mp (hinner c hc) y hcy j hj
    · intro hall
      refine ⟨hall x .self i hi, fun c hc => (ih c hc).mpr fun y hy => ?_⟩
      exact hall y (.of_child (by rwa [childrenOf_eq hi]) hy)

end Boxed

/-- A walk that may go on past everything created later finds the box. -/
theorem Forest.boxed_boundsTo (h : a.Forest) {limit : Nat} (hi : a.get? x = some i)
    (hlimit : a.later i.order < limit) : a.Boxed x (a.boundsTo limit x) := by
  induction limit generalizing x i with
  | zero => omega
  | succ limit ih =>
    rw [boundsTo_succ hi]
    refine .node _ hi fun c hc => ?_
    obtain ⟨j, hj, hf⟩ := h.child hi hc
    have hlater := later_lt hj (h.fatherFirst hj hf hi)
    exact ih hj (by omega)

/-- **The bounded walk finds the box.** -/
theorem Forest.boxed_localBounds (h : a.Forest) (hi : a.get? x = some i) :
    a.Boxed x (a.localBounds x) :=
  h.boxed_boundsTo hi (Nat.lt_succ_of_le (later_le_depthLimit _))

/-! ## What a box depends on -/

/-- **Two trees that are alike below an instance**, as far as boxes are concerned: the same children
and the same attached boxes under it, and the same positions below it.  Its own position is free, and
so is everything that does not lie under it. -/
structure AlikeBelow (a : Arena β) (b : Arena γ) (x : InstanceId) : Prop where
  children : ∀ {y}, a.Under x y →
    (b.get? y).map (·.children) = (a.get? y).map (·.children)
  boxes : ∀ {y}, a.Under x y →
    (b.get? y).map (·.geometry.map (·.bounds)) = (a.get? y).map (·.geometry.map (·.bounds))
  positions : ∀ {y}, a.Under x y → y ≠ x →
    (b.get? y).map (·.position) = (a.get? y).map (·.position)

namespace AlikeBelow

/-- What is alike below a father is alike below his children. -/
theorem child (h : a.AlikeBelow b x) (ha : a.Forest) (hc : c ∈ a.childrenOf x) :
    a.AlikeBelow b c where
  children hy := h.children (hy.of_child hc)
  boxes hy := h.boxes (hy.of_child hc)
  positions hy _ := by
    refine h.positions (hy.of_child hc) ?_
    rintro rfl
    exact Under.not_of_child ha hc hy

/-- It is enough to compare what the subtree lists. -/
theorem of_preorder (ha : a.Forest)
    (hchildren : ∀ y ∈ a.preorder x, (b.get? y).map (·.children) = (a.get? y).map (·.children))
    (hboxes : ∀ y ∈ a.preorder x,
      (b.get? y).map (·.geometry.map (·.bounds)) = (a.get? y).map (·.geometry.map (·.bounds)))
    (hpositions : ∀ y ∈ a.preorder x, y ≠ x →
      (b.get? y).map (·.position) = (a.get? y).map (·.position)) : a.AlikeBelow b x where
  children hy := hchildren _ (ha.mem_preorder.mpr hy)
  boxes hy := hboxes _ (ha.mem_preorder.mpr hy)
  positions hy := hpositions _ (ha.mem_preorder.mpr hy)

end AlikeBelow

/-- **Trees that are alike below an instance have the same box there.** -/
theorem Boxed.congr (h : a.Boxed x box) (ha : a.Forest) (halike : a.AlikeBelow b x) :
    b.Boxed x box := by
  induction h with
  | @node x i inner hi _ ih =>
    -- The instance of the other tree differs in nothing that its box is made of.
    have hchildren := halike.children .self
    have hboxes := halike.boxes .self
    rw [hi, Option.map_some, Option.map_eq_some_iff] at hchildren
    obtain ⟨j, hj, hjc⟩ := hchildren
    rw [hi, hj, Option.map_some, Option.map_some, Option.some.injEq] at hboxes
    have hmem : ∀ {c}, c ∈ i.children → c ∈ a.childrenOf x := fun hc => by rwa [childrenOf_eq hi]
    have hposition : ∀ c ∈ i.children, a.positionOf c = b.positionOf c := fun c hc => by
      have hne : c ≠ x := by
        rintro rfl
        exact Under.not_of_child ha (hmem hc) .self
      rw [positionOf, positionOf, halike.positions (.child .self (hmem hc)) hne]
    rw [← hboxes, List.map_congr_left fun c hc => by rw [hposition c hc], ← hjc]
    refine .node inner hj fun c hc => ?_
    rw [hjc] at hc
    exact ih c hc (halike.child ha (hmem hc))

end Arena

variable {β σ α β' σ' α' : Type}

/-- **Boxes of subtrees**, at every moment at which a program can look.  The walk ends with the box
that the tree says; there is none exactly if nothing in the subtree has geometry; and at any other
moment of any run at which the tree is alike below the instance, the box is the same. -/
theorem Body.Sighted.boxed {L : Language β σ} {allowance : Nat} {p : Body β σ α} {config : Config}
    {host : σ} {s : Sight β} (h : p.Sighted L allowance config host s) {x : InstanceId}
    {i : Instance β} (hi : s.model.arena.get? x = some i) :
    (∀ box, s.model.arena.Boxed x box ↔ box = s.model.arena.localBounds x) ∧
    (s.model.arena.localBounds x = none ↔
      ∀ y ∈ s.model.arena.preorder x, ∀ j, s.model.arena.get? y = some j → j.geometry = none) ∧
    ∀ {L' : Language β' σ'} {allowance' : Nat} {p' : Body β' σ' α'} {config' : Config} {host' : σ'}
      {s' : Sight β'}, p'.Sighted L' allowance' config' host' s' →
      s.model.arena.AlikeBelow s'.model.arena x →
      s'.model.arena.localBounds x = s.model.arena.localBounds x := by
  obtain ⟨pending, hreach, -⟩ := h.reachable
  have hforest := hreach.sound.coherent.forest
  have hboxed := hforest.boxed_localBounds hi
  refine ⟨fun box => ⟨fun hbox => hbox.unique hboxed, fun hbox => hbox ▸ hboxed⟩, ?_, ?_⟩
  · simp only [hboxed.eq_none_iff, hforest.mem_preorder]
  · intro L' allowance' p' config' host' s' h' halike
    obtain ⟨pending', hreach', -⟩ := h'.reachable
    have hthere := hboxed.congr hforest halike
    obtain ⟨j, hj⟩ := hthere.present
    exact (hreach'.sound.coherent.forest.boxed_localBounds hj).unique hthere

namespace Dresser

open Showroom (Routine environmentType)

/-- The drawer of a dresser. -/
def drawer : InstanceId := ⟨1, 0⟩

/-- The knob of the drawer. -/
def knob : InstanceId := ⟨2, 0⟩

/-- The knob is a cube. -/
def cube : Bounds := ⟨.zero, ⟨1, 1, 1⟩⟩

/-- Makes a dresser with a drawer that has no geometry, and a knob on the drawer that has some, and
puts it somewhere with its drawer pulled out and turned. -/
def build (place : Vec3) (angle : Float) : Body Routine Unit Unit := do
  let _ ← Program.call (Op.register environmentType)
  let dresser ← Program.call (Op.instantiate "Environment" none "dresser" [])
  let _ ← Program.call (Op.instantiate "Environment" (some dresser) "drawer" [])
  let _ ← Program.call (Op.instantiate "Environment" (some drawer) "knob" [])
  Program.call (Op.setPosition knob ⟨0, 2, 0⟩)
  Program.call (Op.attachGeometry knob { bounds := cube })
  Program.call (Op.setPosition dresser place)
  Program.call (Op.setPosition drawer place)
  let _ ← Program.call (Op.rotate drawer .z angle)

/-- **The drawer is somewhere**, with nothing but the knob under it. -/
structure Shows (a : Arena Routine) (place : Vec3) (angle : Float) : Prop where
  subtree : a.preorder drawer = [drawer, knob]
  drawerChildren : (a.get? drawer).map (·.children) = some [knob]
  drawerBox : (a.get? drawer).map (·.geometry.map (·.bounds)) = some none
  drawerPlace : (a.get? drawer).map (fun i => (i.position, i.rotation)) = some (place, ⟨0, 0, angle⟩)
  knobChildren : (a.get? knob).map (·.children) = some []
  knobBox : (a.get? knob).map (·.geometry.map (·.bounds)) = some (some cube)
  knobPlace : (a.get? knob).map (·.position) = some ⟨0, 2, 0⟩

instance (a : Arena Routine) (place : Vec3) (angle : Float) : Decidable (Shows a place angle) :=
  decidable_of_iff (_ ∧ _ ∧ _ ∧ _ ∧ _ ∧ _ ∧ _)
    ⟨fun ⟨h₁, h₂, h₃, h₄, h₅, h₆, h₇⟩ => ⟨h₁, h₂, h₃, h₄, h₅, h₆, h₇⟩,
      fun ⟨h₁, h₂, h₃, h₄, h₅, h₆, h₇⟩ => ⟨h₁, h₂, h₃, h₄, h₅, h₆, h₇⟩⟩

/-- Wherever the drawer is, nothing is different below it. -/
theorem Shows.alikeBelow {a b : Arena Routine} {place place' : Vec3} {angle angle' : Float}
    (h : Shows a place angle) (h' : Shows b place' angle') (ha : a.Forest) :
    a.AlikeBelow b drawer := by
  refine .of_preorder ha ?_ ?_ ?_
  all_goals simp only [h.subtree, List.forall_mem_cons]
  · simp [h.drawerChildren, h'.drawerChildren, h.knobChildren, h'.knobChildren]
  · simp [h.drawerBox, h'.drawerBox, h.knobBox, h'.knobBox]
  · simp [h.knobPlace, h'.knobPlace]

end Dresser

/-- **The box of a drawer is where the knob is on it**, wherever the dresser stands and however far
the drawer is pulled out and turned. -/
theorem Body.Sighted.boxed_dresser : ∃ s s',
    (Dresser.build .zero 0).Sighted (Showroom.language (σ := Unit)) 3 {} () s ∧
    Dresser.Shows s.model.arena .zero 0 ∧
    (Dresser.build ⟨5, 1, 0⟩ 1.5).Sighted (Showroom.language (σ := Unit)) 3 {} () s' ∧
    Dresser.Shows s'.model.arena ⟨5, 1, 0⟩ 1.5 ∧
    s.model.arena.AlikeBelow s'.model.arena Dresser.drawer ∧
    s'.model.arena.localBounds Dresser.drawer = some ⟨⟨0, 2, 0⟩, ⟨1, 3, 1⟩⟩ := by
  obtain ⟨s, hs, hshows⟩ := (Dresser.build .zero 0).exists_sighted
    (Showroom.language (σ := Unit)) 3 {} ()
    (fun s => decide (Dresser.Shows s.model.arena .zero 0 ∧
      s.model.arena.localBounds Dresser.drawer = some ⟨⟨0, 2, 0⟩, ⟨1, 3, 1⟩⟩)) (by decide +kernel)
  obtain ⟨s', hs', hshows'⟩ := (Dresser.build ⟨5, 1, 0⟩ 1.5).exists_sighted
    (Showroom.language (σ := Unit)) 3 {} ()
    (fun s => decide (Dresser.Shows s.model.arena ⟨5, 1, 0⟩ 1.5)) (by decide +kernel)
  rw [decide_eq_true_eq] at hshows hshows'
  obtain ⟨hshows, hbox⟩ := hshows
  obtain ⟨pending, hreach, -⟩ := hs.reachable
  obtain ⟨i, hi, -⟩ := Option.map_eq_some_iff.mp hshows.drawerChildren
  have halike := hshows.alikeBelow hshows' hreach.sound.coherent.forest
  exact ⟨s, s', hs, hshows, hs', hshows', halike,
    ((Body.Sighted.boxed hs hi).2.2 hs' halike).trans hbox⟩

end ProductModel
