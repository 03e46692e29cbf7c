import ProductModel.Symbol
import ProductModel.Instance.Id
import ProductModel.Decimal.Notation

/-!
# Values

Values flow through attributes, properties, arguments and results.  `Void` stands for what was
never assigned, `Null` is a value that programs assign on purpose.  A reference to an instance
does not keep the instance alive.

## Two equalities

* `Value.same` compares kind and content; a NaN is not the same as itself, and the two zeros are
  the same.  It decides whether a value has changed.
* `Value.equals` promotes an integer that meets a float.  It is the equality of the operators.
-/

namespace ProductModel

/-- **A dynamic value.** -/
inductive Value where
  | void
  | null
  | bool (b : Bool)
  | int (n : Int64)
  | float (x : Float)
  | str (s : String)
  | symbol (s : Symbol)
  | ref (id : InstanceId)
  | list (items : List Value)
  deriving Repr, Inhabited

namespace Value

/-- The name of a value's kind. -/
def kindName : Value → String
  | void => "Void"
  | null => "Null"
  | bool _ => "Bool"
  | int _ => "Int"
  | float _ => "Float"
  | str _ => "String"
  | symbol _ => "Symbol"
  | ref _ => "Instance"
  | list _ => "List"

/-- **Truth of a value** in conditions and verdicts: absent, zero and empty values are false. -/
def isTruthy : Value → Bool
  | void | null => false
  | bool b => b
  | int n => n != 0
  | float x => x != 0.0
  | str s => s != ""
  | list items => !items.isEmpty
  | symbol _ | ref _ => true

/-- Whether a value is absent. -/
def isVoid : Value → Bool
  | void => true
  | _ => false

/-- Whether a value is null. -/
def isNull : Value → Bool
  | null => true
  | _ => false

/-- The integer in a value; a float loses its fraction, a truth value counts as zero or one. -/
def toInt? : Value → Option Int64
  | int n => some n
  | float x => some (Binary.toInt64 x)
  | bool b => some (if b then 1 else 0)
  | _ => none

/-- The float nearest to a word. -/
def floatOfInt (n : Int64) : Float := Float.ofInt n.toInt

/-- The number in a value as a float. -/
def toFloat? : Value → Option Float
  | int n => some (floatOfInt n)
  | float x => some x
  | _ => none

/-- The text in a value. -/
def toStr? : Value → Option String
  | str s => some s
  | _ => none

/-- The symbol in a value. -/
def toSymbol? : Value → Option Symbol
  | symbol s => some s
  | _ => none

/-- The instance that a value refers to. -/
def toRef? : Value → Option InstanceId
  | ref id => some id
  | _ => none

mutual

/-- **The displayed text of a value.** -/
def text : Value → String
  | void => "VOID"
  | null => "NULL"
  | bool b => if b then "1" else "0"
  | int n => String.ofList (Decimal.Numeral.ofInt n.toInt).text
  | float x => Decimal.display x
  | str s => s
  | symbol s => "@" ++ s.label
  | ref id => id.text
  | list items => "[" ++ ", ".intercalate (texts items) ++ "]"

/-- The displayed texts of several values. -/
def texts : List Value → List String
  | [] => []
  | v :: vs => text v :: texts vs

end

mutual

/-- **Same kind and same content.** -/
def same : Value → Value → Bool
  | void, void => true
  | null, null => true
  | bool a, bool b => a == b
  | int a, int b => a == b
  | float a, float b => a == b
  | str a, str b => a == b
  | symbol a, symbol b => a == b
  | ref a, ref b => a == b
  | list as, list bs => sameItems as bs
  | _, _ => false

/-- Same values, item by item. -/
def sameItems : List Value → List Value → Bool
  | [], [] => true
  | a :: as, b :: bs => same a b && sameItems as bs
  | _, _ => false

end

instance : BEq Value := ⟨same⟩

/-- **Equality of the operators**: two integers are compared as words, an integer and a float as
floats, and all else by kind and content.  Values of unrelated kinds are unequal. -/
def equals (a b : Value) : Bool :=
  match a, b with
  | int m, int n => m == n
  | int m, float y => floatOfInt m == y
  | float x, int n => x == floatOfInt n
  | float x, float y => x == y
  | a, b => same a b

end Value

end ProductModel
