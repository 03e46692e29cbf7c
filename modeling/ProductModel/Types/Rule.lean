import ProductModel.Value

/-!
# Rules

A rule is declared by a type for a reason and has a body.  All rules for a reason along the
lineage of an instance's type form a chain; the first one that rejects ends it.  Rules of general
types come first, and no rule replaces another one.

Bodies are code of the programming language that the model is used with.  Here they are values of
a type `β`; what they do is said where they are run.
-/

namespace ProductModel

/-- **A handle of a type**: its place in the order of registration. -/
structure TypeId where
  index : Nat
  deriving DecidableEq, Repr, Inhabited

/-- The displayed form, such as `type:0`. -/
def TypeId.text (id : TypeId) : String := s!"type:{id.index}"

/-- **The reasons for which the model itself runs rules.**  Every other symbol is a reason of the
user. -/
inductive Reason where
  | translate | rotate
  | createElement | newElement | removeElement
  | spatialModeling | pick | select
  | startDump | finishDump | startEval | finishEval
  deriving DecidableEq, Repr

namespace Reason

/-- All reasons of the model. -/
def all : List Reason :=
  [translate, rotate, createElement, newElement, removeElement, spatialModeling, pick, select,
    startDump, finishDump, startEval, finishEval]

/-- The label of a reason. -/
def label : Reason → String
  | translate => "TRANSLATE"
  | rotate => "ROTATE"
  | createElement => "CREATE_ELEMENT"
  | newElement => "NEW_ELEMENT"
  | removeElement => "REMOVE_ELEMENT"
  | spatialModeling => "SPATIAL_MODELING"
  | pick => "PICK"
  | select => "SELECT"
  | startDump => "START_DUMP"
  | finishDump => "FINISH_DUMP"
  | startEval => "START_EVAL"
  | finishEval => "FINISH_EVAL"

/-- The symbol of a reason. -/
def symbol (r : Reason) : Symbol := ⟨r.label⟩

/-- The reason of a symbol. -/
def ofSymbol? (s : Symbol) : Option Reason := all.find? (·.symbol == s)

end Reason

/-- **When a rule runs**: before the action, which it can prevent, or after it. -/
inductive RuleKind where
  | anterior
  | posterior
  deriving DecidableEq, Repr

/-- **A rule.**  A nullary one does not see the argument of the chain. -/
structure Rule (β : Type) where
  reason : Symbol
  kind : RuleKind
  nullary : Bool := false
  body : β
  deriving Repr

/-- What a rule that ignores the argument of its chain sees, and what the others see. -/
def Rule.argument {β : Type} (r : Rule β) (arg : Value) : Value :=
  if r.nullary then .void else arg

/-- The answer of a rule. -/
inductive Verdict where
  | accept
  | reject
  deriving DecidableEq, Repr

/-- Acceptance as a truth value. -/
def Verdict.ofBool (b : Bool) : Verdict := if b then .accept else .reject

/-- **A link of a chain**: a rule and the type that declares it. -/
structure ChainLink (β : Type) where
  definingType : TypeId
  rule : Rule β
  deriving Repr

/-- **Which rule of a chain rejected.** -/
structure Rejection where
  subject : InstanceId
  reason : Symbol
  /-- the qualified name of the type that declares the rule -/
  definingType : String
  /-- the number of links before it -/
  position : Nat
  deriving DecidableEq, Repr

/-- The displayed text of a rejection. -/
def Rejection.text (f : Rejection) : String :=
  s!"{f.reason.label} rule #{f.position} of {f.definingType} rejected"

/-- **How a chain ended**: all its rules accepted, or one rejected. -/
inductive ChainOutcome where
  | passed (executed : Nat)
  | rejected (rejection : Rejection)
  deriving DecidableEq, Repr

/-- Whether all rules of a chain accepted. -/
def ChainOutcome.isSuccess : ChainOutcome → Bool
  | .passed _ => true
  | .rejected _ => false

end ProductModel
