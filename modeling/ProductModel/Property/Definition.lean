import ProductModel.Operator
import ProductModel.Value.Exchange

/-!
# Property definitions

A property definition says how a property of an instance is presented and which values it takes.
`PropertyDef.validate` checks a value against the kind and the bounds; the values of a computed
choice are known only to a running model and are checked there.
-/

namespace ProductModel

/-- **The kind of a property.** -/
inductive PropertyKind where
  | bool
  | int
  | float
  | string
  /-- one of the listed values -/
  | choice (values : List Value)
  /-- one of the values that a method returns -/
  | choiceFn (method : Symbol)
  /-- edited by an editor of its own; any value is taken -/
  | editor (name : String)
  deriving Repr

namespace PropertyKind

/-- The name of a kind in messages. -/
def kindName : PropertyKind → String
  | bool => "bool"
  | int => "int"
  | float => "float"
  | string => "string"
  | choice _ => "choice"
  | choiceFn _ => "choice-fn"
  | editor _ => "editor"

/-- Same kind and same content. -/
def same : PropertyKind → PropertyKind → Bool
  | bool, bool | int, int | float, float | string, string => true
  | choice as, choice bs => Value.sameItems as bs
  | choiceFn a, choiceFn b => a == b
  | editor a, editor b => a == b
  | _, _ => false

instance : BEq PropertyKind := ⟨same⟩

/-- The method that computes the choices. -/
def choiceMethod? : PropertyKind → Option Symbol
  | choiceFn method => some method
  | _ => none

end PropertyKind

/-- **The bounds of a property**: a range of numbers, or the greatest length of a text. -/
inductive PropertyBounds where
  | range (min max : Float)
  | length (limit : UInt64)
  deriving Repr

namespace PropertyBounds

/-- Same bounds, compared as numbers. -/
def same : PropertyBounds → PropertyBounds → Bool
  | range a b, range c d => a == c && b == d
  | length a, length b => a == b
  | _, _ => false

instance : BEq PropertyBounds := ⟨same⟩

end PropertyBounds

/-- **Where a property is presented**: at a slot, or behind all that are there. -/
inductive PropertyPosition where
  | explicit (slot : Int32)
  | implicit
  deriving DecidableEq, Repr

/-- The slot that a position names. -/
def PropertyPosition.slot? : PropertyPosition → Option Int32
  | .explicit slot => some slot
  | .implicit => none

/-- **Whether a property is offered for editing.**  A disabled one refuses writes. -/
inductive PropertyState where
  | enabled
  | disabled
  | hidden
  deriving DecidableEq, Repr

/-- **A property definition.** -/
structure PropertyDef where
  key : Symbol
  name : String
  kind : PropertyKind
  bounds : Option PropertyBounds := none
  format : Option String := none
  position : PropertyPosition := .implicit
  state : PropertyState := .enabled
  deriving Repr

namespace PropertyDef

/-- Same definition in every field. -/
def same (a b : PropertyDef) : Bool :=
  a.key == b.key && a.name == b.name && a.bounds == b.bounds && a.format == b.format
    && a.kind == b.kind && a.position == b.position && a.state == b.state

instance : BEq PropertyDef := ⟨same⟩

/-- The message for a value that is not among the choices. -/
def notAChoice (v : Value) : String := s!"{v.text} is not one of the allowed choices"

/-- Whether a value has the kind of a property. -/
def checkKind (kind : PropertyKind) (v : Value) : Except String Unit :=
  let mismatch := .error s!"expected {kind.kindName}, got {v.kindName}"
  match kind, v with
  | .bool, .bool _ => .ok ()
  | .bool, .int n => if n = 0 ∨ n = 1 then .ok () else mismatch
  | .int, .int _ => .ok ()
  | .float, .int _ => .ok ()
  | .float, .float _ => .ok ()
  | .string, .str _ => .ok ()
  | .choice values, v => if values.any (·.equals v) then .ok () else .error (notAChoice v)
  | .choiceFn _, _ => .ok ()
  | .editor _, _ => .ok ()
  | _, _ => mismatch

/-- Whether a value keeps to the bounds of a property.  A range concerns numbers alone and a
length concerns texts alone. -/
def checkBounds (bounds : Option PropertyBounds) (v : Value) : Except String Unit :=
  match bounds with
  | none => .ok ()
  | some (.range min max) =>
    match v.toFloat? with
    | some x =>
      if x < min || max < x then
        .error ((Decimal.display x) ++ " is outside [" ++ (Decimal.display min) ++ ", "
          ++ (Decimal.display max) ++ "]")
      else .ok ()
    | none => .ok ()
  | some (.length limit) =>
    match v with
    | .str s =>
      if limit.toNat < s.length then .error s!"longer than {limit.toNat} characters" else .ok ()
    | _ => .ok ()

/-- **Whether a value fits a definition**: its kind first, then its bounds. -/
def validate (d : PropertyDef) (v : Value) : Except String Unit := do
  checkKind d.kind v
  checkBounds d.bounds v

end PropertyDef

end ProductModel
