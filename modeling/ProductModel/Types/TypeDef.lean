import ProductModel.Operator
import ProductModel.Types.Rule

/-!
# Type definitions

A type declares fields with initial values, methods, rules, categories and a consistency check.
It may extend another type, be abstract, or be final.  Definitions are built up from an empty one
of a name.
-/

namespace ProductModel

/-- **A method.**  An instance method needs a receiver, a static one does not get any; without an
arity any number of arguments is taken. -/
structure Method (β : Type) where
  name : Symbol
  arity : Option Nat := none
  isStatic : Bool := false
  body : β
  deriving Repr

/-- **A declared field** with its initial value. -/
structure FieldDecl where
  name : Symbol
  init : Value
  isPrivate : Bool := false
  deriving Repr

/-- **A type definition.** -/
structure TypeDef (β : Type) where
  name : String
  /-- the package, such as `::vendor::series`; empty for none -/
  package : String := ""
  /-- the name of the supertype, qualified or short -/
  supertype : Option String := none
  isAbstract : Bool := false
  isFinal : Bool := false
  fields : List FieldDecl := []
  /-- at most one method of a name -/
  methods : List (Method β) := []
  rules : List (Rule β) := []
  /-- at most one category of a name -/
  categories : List Symbol := []
  /-- the consistency check -/
  check : Option β := none
  deriving Repr

namespace TypeDef

variable {β : Type}

/-- The name with its package. -/
def qualifiedName (d : TypeDef β) : String :=
  if d.package = "" then d.name else d.package ++ "::" ++ d.name

/-- Adds a method.  It replaces a method of its name. -/
def addMethod (d : TypeDef β) (m : Method β) : TypeDef β :=
  { d with methods := d.methods.filter (·.name ≠ m.name) ++ [m] }

/-- Adds a category. -/
def addCategory (d : TypeDef β) (category : Symbol) : TypeDef β :=
  if d.categories.contains category then d
  else { d with categories := d.categories ++ [category] }

/-- The method of a name. -/
def method? (d : TypeDef β) (name : Symbol) : Option (Method β) :=
  d.methods.find? (·.name == name)

/-- The rules for a reason in the order of their declaration. -/
def rulesFor (d : TypeDef β) (reason : Symbol) : List (Rule β) :=
  d.rules.filter (·.reason == reason)

/-- Whether a field of a name is declared. -/
def declaresField (d : TypeDef β) (name : Symbol) : Bool := d.fields.any (·.name == name)

end TypeDef

/-- The text that starts the name of an operator's method. -/
def operatorMark : String := "operator"

/-- What follows the mark in the name of an operator's method. -/
def operatorToken? (name : Symbol) : Option String :=
  let label := name.label.toList
  let mark := operatorMark.toList
  if label.take mark.length = mark then some (String.ofList (label.drop mark.length)) else none

/-- The operators that methods of a type provide, or the name of a method that claims to provide
one and does not. -/
def collectOperators {β : Type} : List (Method β) → Except String (List (BinaryOp × Method β))
  | [] => .ok []
  | m :: ms =>
    match operatorToken? m.name with
    | none => collectOperators ms
    | some token =>
      match BinaryOp.ofToken? token with
      | none => .error m.name.label
      | some op => (collectOperators ms).map ((op, m) :: ·)

end ProductModel
