import ProductModel.Program.Operation

/-!
# Expressions of scripts

Scripts are a small language for driving a model: a session runs their steps one by one, and the
bodies of types can be written in it.  Its expressions compute values from variables, from the
call of the body that runs, and with the operators of the model.

* `Session` is the state of the language: variables, a trace, a log and a cache of its own.
* `Scope` is what a running body knows of its call.
* `Expr.eval` is the meaning of expressions, a program over the operations of the model.
-/

namespace ProductModel.Script

/-- What a session notes on its trace. -/
inductive TraceEntry where
  | value (v : Value)
  | error (e : ModelError)
  | moved (label : String) (position rotation : Vec3)
  deriving Repr

/-- **The state of a session.** -/
structure Session (β : Type) where
  bindings : Association String Value := {}
  trace : List TraceEntry := []
  log : ProblemLog := {}
  /-- a cache of method lookups beside that of the world -/
  cache : MethodCache β := {}
  deriving Repr

namespace Session

variable {β : Type}

/-- The value of a variable; void if it was never set. -/
def get (s : Session β) (name : String) : Value := (s.bindings.get? name).getD .void

/-- Sets a variable. -/
def set (s : Session β) (name : String) (v : Value) : Session β :=
  { s with bindings := s.bindings.insert name v }

/-- Adds an entry to the trace. -/
def note (s : Session β) (entry : TraceEntry) : Session β :=
  { s with trace := s.trace ++ [entry] }

end Session

/-- **What a running body knows of its call.** -/
structure Scope where
  receiver : Option InstanceId := none
  args : List Value := []
  reason : Value := .void
  /-- the qualified name of the type that declares the body's rule -/
  definingType : String := ""
  deriving Repr

/-- **An expression.** -/
inductive Expr where
  | value (v : Value)
  | list (items : List Expr)
  | var (name : String)
  | arg (n : Nat)
  | receiver
  | reason
  | definingType
  | nth (items : Expr) (n : Nat)
  | binary (op : BinaryOp) (a b : Expr)
  | unary (op : UnaryOp) (a : Expr)
  deriving Repr, Inhabited

/-- A program over a model that keeps the state of a session. -/
abbrev Action (β α : Type) := Body β (Session β) α

/-- The item of a list; void if there is none. -/
def nthItem (v : Value) (n : Nat) : Value :=
  match v with
  | .list items => (items[n]?).getD .void
  | _ => .void

namespace Expr

variable {β : Type}

mutual

/-- **The value of an expression**, from left to right. -/
def eval (scope : Scope) : Expr → Action β Value
  | value v => .pure v
  | list items => do return .list (← evalAll scope items)
  | var name => do return (← Program.state).get name
  | arg n => .pure ((scope.args[n]?).getD .void)
  | receiver => .pure ((scope.receiver.map Value.ref).getD .void)
  | reason => .pure scope.reason
  | definingType => .pure (.str scope.definingType)
  | nth items n => do return nthItem (← eval scope items) n
  | binary op a b => do
    let a ← eval scope a
    let b ← eval scope b
    Program.call (Op.evalBinary a op b)
  | unary op a => do
    let a ← eval scope a
    Program.ofExcept ((applyUnary op a).mapError .dispatch)

/-- The values of several expressions. -/
def evalAll (scope : Scope) : List Expr → Action β (List Value)
  | [] => .pure []
  | e :: es => do
    let v ← eval scope e
    return v :: (← evalAll scope es)

end

/-- The instance that an expression means; the handle of no instance if it means none. -/
def evalInstance (scope : Scope) (e : Expr) : Action β InstanceId := do
  return ((← eval scope e).toRef?).getD InstanceId.none

/-- The name that a value means: the label of a symbol, else its text. -/
def nameOf : Value → String
  | .symbol s => s.label
  | v => v.text

/-- The name that an expression means. -/
def evalName (scope : Scope) (e : Expr) : Action β String := do return nameOf (← eval scope e)

/-- The symbol that an expression means. -/
def evalSymbol (scope : Scope) (e : Expr) : Action β Symbol := do return ⟨← evalName scope e⟩

end Expr

end ProductModel.Script
