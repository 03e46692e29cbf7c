import ProductModel.Value
import ProductModel.Error

/-!
# Operators

The built-in operators on values.  Arithmetic is that of 64-bit words unless one operand is a
float; then both are floats.  A word divided by zero is an error, a float divided by zero is not.
A type can replace an operator for its instances with a method named for the token; that choice
is made where operators are evaluated on a model.
-/

namespace ProductModel

/-- **The operators of two operands.** -/
inductive BinaryOp where
  | add | sub | mul | div | mod
  | eq | ne | lt | le | gt | ge
  | and | or
  | bitAnd | bitOr | bitXor | shl | shr
  deriving DecidableEq, Repr

namespace BinaryOp

/-- All operators of two operands. -/
def all : List BinaryOp :=
  [add, sub, mul, div, mod, eq, ne, lt, le, gt, ge, and, or, bitAnd, bitOr, bitXor, shl, shr]

/-- How an operator is written. -/
def token : BinaryOp → String
  | add => "+" | sub => "-" | mul => "*" | div => "/" | mod => "%"
  | eq => "==" | ne => "!=" | lt => "<" | le => "<=" | gt => ">" | ge => ">="
  | and => "&&" | or => "||"
  | bitAnd => "&" | bitOr => "|" | bitXor => "^" | shl => "<<" | shr => ">>"

/-- The operator that a token denotes. -/
def ofToken? (token : String) : Option BinaryOp := all.find? (·.token == token)

/-- Every operator is read back from its token. -/
theorem ofToken?_token (op : BinaryOp) : ofToken? op.token = some op := by
  cases op <;> decide

end BinaryOp

/-- **The operators of one operand.** -/
inductive UnaryOp where
  | neg | not | bitNot
  deriving DecidableEq, Repr

namespace UnaryOp

/-- How an operator is written. -/
def token : UnaryOp → String
  | neg => "-"
  | not => "!"
  | bitNot => "~"

/-- The operator that a token denotes. -/
def ofToken? (token : String) : Option UnaryOp :=
  [neg, not, bitNot].find? (·.token == token)

end UnaryOp

/-- The error of an operator whose operands have the wrong kinds. -/
def typeMismatch (token : String) (operands : List Value) : DispatchError :=
  .typeMismatch token (", ".intercalate (operands.map Value.kindName))

/-- **Operators on words.**  Sums, differences, products and quotients wrap; a quotient is cut off
towards zero and the remainder has the sign of the dividend.  A shift has to stay below the width
of a word.  There is no result for an operator that words do not have. -/
def intOp (a : Int64) (op : BinaryOp) (b : Int64) : Option (Except DispatchError Int64) :=
  match op with
  | .add => some (.ok (a + b))
  | .sub => some (.ok (a - b))
  | .mul => some (.ok (a * b))
  | .div => some (if b = 0 then .error .divisionByZero else .ok (a / b))
  | .mod => some (if b = 0 then .error .divisionByZero else .ok (a % b))
  | .bitAnd => some (.ok (a &&& b))
  | .bitOr => some (.ok (a ||| b))
  | .bitXor => some (.ok (a ^^^ b))
  | .shl => if 0 ≤ b ∧ b < 64 then some (.ok (a <<< b)) else none
  | .shr => if 0 ≤ b ∧ b < 64 then some (.ok (a >>> b)) else none
  | _ => none

/-- **Operators on floats**: the arithmetic ones. -/
def floatOp (a : Float) (op : BinaryOp) (b : Float) : Option Float :=
  match op with
  | .add => some (a + b)
  | .sub => some (a - b)
  | .mul => some (a * b)
  | .div => some (a / b)
  | .mod => some (Binary.remainder a b)
  | _ => none

/-- The order of two floats, if neither is a NaN. -/
def compareFloats (x y : Float) : Option Ordering :=
  if x < y then some .lt
  else if y < x then some .gt
  else if x == y then some .eq
  else none

/-- **The order of two values**: of two texts, or of two numbers. -/
def compareValues (a b : Value) : Option Ordering :=
  match a, b with
  | .str s, .str t => some (if s < t then .lt else if s = t then .eq else .gt)
  | .int m, .int n => some (if m < n then .lt else if m = n then .eq else .gt)
  | a, b => do compareFloats (← a.toFloat?) (← b.toFloat?)

/-- Whether an order satisfies a comparison. -/
def BinaryOp.holds (op : BinaryOp) (o : Ordering) : Bool :=
  match op with
  | .lt => o == .lt
  | .le => o != .gt
  | .gt => o == .gt
  | _ => o != .lt

/-- Arithmetic of two values: on words if both are words, else on floats. -/
def arithmetic (a : Value) (op : BinaryOp) (b : Value) : Except DispatchError Value :=
  let mismatch := typeMismatch op.token [a, b]
  match a, b with
  | .int m, .int n =>
    match intOp m op n with
    | some result => result.map .int
    | none => .error mismatch
  | a, b =>
    match a.toFloat?, b.toFloat? with
    | some x, some y =>
      match floatOp x op y with
      | some z => .ok (.float z)
      | none => .error mismatch
    | _, _ => .error mismatch

/-- **The built-in meaning of an operator of two operands.** -/
def applyBinary (a : Value) (op : BinaryOp) (b : Value) : Except DispatchError Value :=
  match op with
  | .and => .ok (.bool (a.isTruthy && b.isTruthy))
  | .or => .ok (.bool (a.isTruthy || b.isTruthy))
  | .eq => .ok (.bool (a.equals b))
  | .ne => .ok (.bool (!a.equals b))
  | .lt | .le | .gt | .ge =>
    match compareValues a b with
    | some o => .ok (.bool (op.holds o))
    | none => .error (typeMismatch op.token [a, b])
  | .add =>
    match a, b with
    | .str s, .str t => .ok (.str (s ++ t))
    | a, b => arithmetic a op b
  | op => arithmetic a op b

/-- **The built-in meaning of an operator of one operand.** -/
def applyUnary (op : UnaryOp) (v : Value) : Except DispatchError Value :=
  match op, v with
  | .not, v => .ok (.bool (!v.isTruthy))
  | .neg, .int n => .ok (.int (-n))
  | .neg, .float x => .ok (.float (-x))
  | .bitNot, .int n => .ok (.int (~~~n))
  | op, v => .error (typeMismatch op.token [v])

end ProductModel
