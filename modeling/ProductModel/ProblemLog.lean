import ProductModel.Symbol
import ProductModel.Instance.Id

/-!
# Logs of consistency problems

A consistency check collects the problems it finds, so that one sweep can report all of them.  A
log keeps them by the place of the instance in the order of creation; problems of one instance
stay in the order in which they were found.
-/

namespace ProductModel

/-- **A problem found by a check.** -/
structure Problem where
  subject : InstanceId
  /-- the absolute name of the instance when the problem was found -/
  path : String
  property : Option Symbol
  message : String
  deriving DecidableEq, Repr

/-- The displayed text of a problem. -/
def Problem.text (p : Problem) : String := p.path ++ ": " ++ p.message

/-- **A log of problems**: the problems of every instance, by increasing order number. -/
structure ProblemLog where
  groups : List (Nat × List Problem) := []
  deriving Repr, Inhabited

namespace ProblemLog

/-- The log without problems. -/
def empty : ProblemLog := {}

/-- Adds a problem to the group of an order number, which is made if it is missing. -/
def pushGroup (order : Nat) (p : Problem) :
    List (Nat × List Problem) → List (Nat × List Problem)
  | [] => [(order, [p])]
  | (o, ps) :: rest =>
    if order < o then (order, [p]) :: (o, ps) :: rest
    else if order = o then (o, ps ++ [p]) :: rest
    else (o, ps) :: pushGroup order p rest

/-- **Adds a problem** of the instance with the given order number. -/
def push (log : ProblemLog) (order : Nat) (p : Problem) : ProblemLog :=
  ⟨pushGroup order p log.groups⟩

/-- All problems, by increasing order number. -/
def toList (log : ProblemLog) : List Problem := log.groups.flatMap (·.2)

/-- The number of problems. -/
def size (log : ProblemLog) : Nat := log.toList.length

/-- Whether no instance has a problem. -/
def isEmpty (log : ProblemLog) : Bool := log.groups.isEmpty

/-- The problems of the instance with the given order number. -/
def problemsOf (log : ProblemLog) (order : Nat) : List Problem :=
  ((log.groups.find? (·.1 == order)).map (·.2)).getD []

end ProblemLog

end ProductModel
