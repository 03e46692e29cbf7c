import ProductModel.Json.Exchange

/-!
# Vectors, boxes and frames

Positions are vectors of floats, boxes lie along the axes, and an orientation is three angles in
radians about the axes x, y and z, applied in that order.
-/

namespace ProductModel

/-- **A vector.** -/
structure Vec3 where
  x : Float
  y : Float
  z : Float
  deriving Repr, DecidableEq, Inhabited

namespace Vec3

/-- The origin. -/
def zero : Vec3 := ⟨0, 0, 0⟩

/-- Combines two vectors component by component. -/
def zipWith (f : Float → Float → Float) (a b : Vec3) : Vec3 := ⟨f a.x b.x, f a.y b.y, f a.z b.z⟩

instance : Add Vec3 := ⟨zipWith (· + ·)⟩

instance : Sub Vec3 := ⟨zipWith (· - ·)⟩

/-- Equality of numbers, component by component. -/
def same (a b : Vec3) : Bool := a.x == b.x && a.y == b.y && a.z == b.z

instance : BEq Vec3 := ⟨same⟩

/-- The components in order. -/
def toList (v : Vec3) : List Float := [v.x, v.y, v.z]

/-- The sum of the products of the components. -/
def dot (a b : Vec3) : Float := a.x * b.x + a.y * b.y + a.z * b.z

instance : Exchange Vec3 where
  encode v := .array [Exchange.encode v.x, Exchange.encode v.y, Exchange.encode v.z]
  decode depth j := do
    let (depth, items) ← Exchange.enterArray depth j
    match items with
    | [x, y, z] =>
      return ⟨← Exchange.decode depth x, ← Exchange.decode depth y, ← Exchange.decode depth z⟩
    | _ => none

end Vec3

/-- The lesser of two floats.  A NaN gives way to the other one. -/
def lesser (a b : Float) : Float := if a.isNaN || b < a then b else a

/-- The greater of two floats.  A NaN gives way to the other one. -/
def greater (a b : Float) : Float := if a.isNaN || a < b then b else a

/-- **A box along the axes**, given by its least and its greatest corner. -/
structure Bounds where
  min : Vec3
  max : Vec3
  deriving Repr, DecidableEq

namespace Bounds

/-- Equality of numbers, corner by corner. -/
def same (a b : Bounds) : Bool := a.min == b.min && a.max == b.max

instance : BEq Bounds := ⟨same⟩

/-- The least box around two boxes. -/
def union (a b : Bounds) : Bounds := ⟨a.min.zipWith lesser b.min, a.max.zipWith greater b.max⟩

/-- A box moved by a vector. -/
def offset (b : Bounds) (by_ : Vec3) : Bounds := ⟨b.min + by_, b.max + by_⟩

/-- The extent of a box. -/
def size (b : Bounds) : Vec3 := b.max - b.min

instance : Exchange Bounds where
  encode b := .record [("min", Exchange.encode b.min), ("max", Exchange.encode b.max)]
  decode depth j := do
    let fs ← Exchange.readFields ["min", "max"] depth j
    return ⟨← fs.required "min", ← fs.required "max"⟩

end Bounds

/-- **The axes.** -/
inductive Axis where
  | x | y | z
  deriving DecidableEq, Repr

namespace Axis

/-- The name of an axis. -/
def label : Axis → String
  | x => "x"
  | y => "y"
  | z => "z"

end Axis

/-- Adds an amount to the component of one axis. -/
def Vec3.addAt (v : Vec3) (axis : Axis) (amount : Float) : Vec3 :=
  match axis with
  | .x => { v with x := v.x + amount }
  | .y => { v with y := v.y + amount }
  | .z => { v with z := v.z + amount }

/-- **A linear map**, given by its rows. -/
structure Matrix where
  row1 : Vec3
  row2 : Vec3
  row3 : Vec3
  deriving Repr

namespace Matrix

/-- The map that changes nothing. -/
def identity : Matrix := ⟨⟨1, 0, 0⟩, ⟨0, 1, 0⟩, ⟨0, 0, 1⟩⟩

/-- The image of a vector. -/
def apply (m : Matrix) (v : Vec3) : Vec3 := ⟨m.row1.dot v, m.row2.dot v, m.row3.dot v⟩

/-- Rows and columns exchanged. -/
def transpose (m : Matrix) : Matrix :=
  ⟨⟨m.row1.x, m.row2.x, m.row3.x⟩, ⟨m.row1.y, m.row2.y, m.row3.y⟩, ⟨m.row1.z, m.row2.z, m.row3.z⟩⟩

/-- One map after another: first `b`, then `a`. -/
def mul (a b : Matrix) : Matrix :=
  let columns := b.transpose
  ⟨columns.apply a.row1, columns.apply a.row2, columns.apply a.row3⟩

/-- The orientation given by three angles. -/
def ofAngles (angles : Vec3) : Matrix :=
  let (sx, cx) := (angles.x.sin, angles.x.cos)
  let (sy, cy) := (angles.y.sin, angles.y.cos)
  let (sz, cz) := (angles.z.sin, angles.z.cos)
  let aboutX : Matrix := ⟨⟨1, 0, 0⟩, ⟨0, cx, -sx⟩, ⟨0, sx, cx⟩⟩
  let aboutY : Matrix := ⟨⟨cy, 0, sy⟩, ⟨0, 1, 0⟩, ⟨-sy, 0, cy⟩⟩
  let aboutZ : Matrix := ⟨⟨cz, -sz, 0⟩, ⟨sz, cz, 0⟩, ⟨0, 0, 1⟩⟩
  mul aboutZ (mul aboutY aboutX)

end Matrix

/-- **A place in space**: where it is and how it is turned. -/
structure Frame where
  origin : Vec3
  basis : Matrix
  deriving Repr

namespace Frame

/-- The place of a root. -/
def base : Frame := ⟨.zero, .identity⟩

/-- The place at a position and orientation within another place. -/
def place (f : Frame) (position rotation : Vec3) : Frame :=
  ⟨f.origin + f.basis.apply position, f.basis.mul (.ofAngles rotation)⟩

end Frame

end ProductModel
