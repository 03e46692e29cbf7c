import ProductModel.Engine.Action

/-!
# Rule chains at work

A chain is assembled when it starts and runs until a rule rejects or fails.  While it runs, its
instance is busy, which keeps bodies from changing the structure around it.  The sweeps at the
border of storage run the chain of a reason over a whole subtree.
-/

namespace ProductModel.Engine

variable {β σ : Type} (e : Engine β σ)

/-- Runs the links of a chain from a position on. -/
def runLinks (subject : InstanceId) (reason : Symbol) (arg : Value) :
    Nat → List (ChainLink β) → Action β σ ChainOutcome
  | position, [] => return .passed position
  | position, link :: links => do
    let call := {
      subject, reason
      arg := link.rule.argument arg
      definingType := link.definingType }
    match ← e.run (e.language.rule link.rule.body call) with
    | .accept => runLinks subject reason arg (position + 1) links
    | .reject =>
      let definingType := (← Action.model).types.name link.definingType
      return .rejected { subject, reason, definingType, position }

/-- **Runs the chain of a reason on an instance.**  The instance is busy until the chain ends, in
whatever way. -/
def callRules (id : InstanceId) (reason : Symbol) (phase : Option RuleKind) (arg : Value) :
    Action β σ ChainOutcome := do
  let type ← Action.typeOf id
  match (← Action.model).types.ruleChain type reason phase with
  | [] => return .passed 0
  | chain =>
    Action.updateIfThere id fun i => { i with busy := i.busy + 1 }
    let result ← Action.attempt (e.runLinks id reason arg 0 chain)
    Action.updateIfThere id fun i => { i with busy := i.busy - 1 }
    Action.ofExcept result

/-- Marks instances as storable or not; all of them have to be there. -/
def markStorable (storable : Bool) : List InstanceId → Action β σ Unit
  | [] => return
  | id :: ids => do
    Action.update id fun i => { i with storable }
    markStorable storable ids

/-- Runs the chain on instances in turn, making each storable.  A rejection ends the sweep and takes
the mark off the instances before. -/
def enterStorable (reason : Symbol) (done : List InstanceId) :
    Nat → List InstanceId → Action β σ ChainOutcome
  | executed, [] => return .passed executed
  | executed, id :: ids => do
    match ← e.callRules id reason none .void with
    | .passed n =>
      Action.update id fun i => { i with storable := true }
      enterStorable reason (done ++ [id]) (executed + n) ids
    | .rejected rejection =>
      markStorable false done
      return .rejected rejection

/-- Runs the chain on instances in turn, making none storable any more.  The first rejection is
reported at the end. -/
def leaveStorable (reason : Symbol) :
    Nat → Option Rejection → List InstanceId → Action β σ ChainOutcome
  | executed, none, [] => return .passed executed
  | _, some rejection, [] => return .rejected rejection
  | executed, rejection, id :: ids => do
    match ← e.callRules id reason none .void with
    | .passed n =>
      Action.update id fun i => { i with storable := false }
      leaveStorable reason (executed + n) rejection ids
    | .rejected f =>
      Action.update id fun i => { i with storable := false }
      leaveStorable reason executed (rejection.or (some f)) ids

/-- **Runs a sweep over a subtree**, fathers before children. -/
def sweep (kind : Sweep) (root : InstanceId) : Action β σ ChainOutcome := do
  let _ ← Action.find root
  let nodes := (← Action.model).arena.preorder root
  if kind.enters then e.enterStorable kind.reason.symbol [] 0 nodes
  else e.leaveStorable kind.reason.symbol 0 none nodes

end ProductModel.Engine
