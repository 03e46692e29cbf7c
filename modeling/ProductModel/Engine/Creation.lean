import ProductModel.Naming
import ProductModel.Engine.Call
import ProductModel.Engine.RuleChain

/-!
# Creation, removal and naming at work

An instance is created under a father or as a root, under a name that is free there, and then
initialized by the method `initialize` of its type; if that fails, the instance is discarded.
Elements are created and removed with the consent of their father's rules.  Removal takes a whole
subtree.

## Design

All checks come before the first change, so an operation that is refused by a check leaves the
model as it was.
-/

namespace ProductModel

namespace Action

variable {β σ : Type}

/-- The type of a name, which must not be abstract. -/
def instantiableType (typeName : String) : Action β σ TypeId := do
  let id ← ask (·.lookupType typeName)
  let types := (← model).types
  if (types.definition? id).any (·.isAbstract) then
    throw (.creation (.abstractType (types.name id)))
  return id

/-- Refuses children for an instance that is not yet or no longer there, or is busy. -/
def ensureAcceptsChildren (father : InstanceId) (operation : String) : Action β σ Unit := do
  let i ← find father
  if i.state ≠ .initializing ∧ i.state ≠ .live then
    throw (.hierarchy (.invalidState (← describe father) i.state.label operation))
  ensureNotBusy father operation

/-- Refuses a name that a child of the father, or a root, has already. -/
def ensureNameFree (father : Option InstanceId) (name : String) : Action β σ Unit := do
  let arena := (← model).arena
  match father with
  | some father =>
    if (arena.childNamed father name).isSome then
      throw (.creation (.duplicateName (← describe father) name))
  | none =>
    if (arena.rootNamed name).isSome then
      throw (.creation (.duplicateRoot name))

/-- Puts a new instance into the arena and under its father, or among the roots. -/
def insertNew (type : TypeId) (father : Option InstanceId) (name : String) (element : Bool) :
    Action β σ InstanceId := do
  let m ← model
  let (order, arena) := m.arena.nextOrder
  modifyModel fun m => { m with arena }
  let i : Instance β := {
    type, father, element, order
    localName := name
    fields := m.types.initialFields type }
  let (id, arena) ← ofExcept ((arena.insert i).mapError .hierarchy)
  let arena := match father with
    | some father => arena.modify father fun i => { i with children := i.children ++ [id] }
    | none => arena.addRoot id
  modifyModel fun m => { m with arena }
  return id

/-- Puts a new instance into its place, where its initialization begins. -/
def place (type : TypeId) (father : Option InstanceId) (name : String) (element : Bool) :
    Action β σ InstanceId := do
  let id ← insertNew type father name element
  update id fun i => { i with state := .initializing }
  return id

/-- Removes an instance and all below it, if it is there, without asking anyone. -/
def discard (id : InstanceId) : Action β σ Unit :=
  modifyModel fun m =>
    match m.arena.get? id with
    | some i => (m.removeSubtree id i.father).2
    | none => m

/-- Refuses an operation while a rule chain runs on one of several instances. -/
def ensureNoneBusy (operation : String) : List InstanceId → Action β σ Unit
  | [] => return
  | id :: ids => do
    ensureNotBusy id operation
    ensureNoneBusy operation ids

/-- **Renames an instance.**  The absolute names below it are forgotten. -/
def rename (id : InstanceId) (name : String) : Action β σ Unit := do
  ofExcept ((Naming.validate name).mapError .creation)
  ensureNotBusy id "rename"
  let i ← find id
  if i.localName = name then return
  match i.father with
  | some father => ensureNotBusy father "rename a child of"
  | none => pure ()
  ensureNameFree i.father name
  modifyModel fun m =>
    let below := m.arena.preorder id
    let arena := m.arena.modify id fun i => { i with localName := name }
    { m with arena := arena.modifyAll below fun i => { i with memo := none } }

/-- **Makes a child an element of its father.** -/
def beElement (id : InstanceId) : Action β σ Unit := do
  let i ← find id
  if i.father.isNone then
    throw (.hierarchy (.invalidState (← describe id) "root" "make an element of"))
  ensureNotBusy id "make an element of"
  update id fun i => { i with element := true }

/-- **Makes an element a plain child of its father.** -/
def unBeElement (id : InstanceId) : Action β σ Unit := do
  let i ← find id
  if !i.element then
    throw (.hierarchy (.notAnElement (← describe id)))
  ensureNotBusy id "detach an element from"
  update id fun i => { i with element := false }

end Action

namespace Engine

variable {β σ : Type} (e : Engine β σ)

/-- The name of the method that initializes an instance. -/
def initializeName : Symbol := ⟨"initialize"⟩

/-- Calls a method as the initializer of an instance. -/
def invokeInitializer (id : InstanceId) (m : Method β) (args : List Value) :
    Action β σ Value := do
  Action.checkCall m (some id) args
  e.run (e.language.initializer m.body ⟨some id, args⟩)

/-- Calls a method to initialize an instance.  If it fails, the instance is discarded. -/
def runInitializer (id : InstanceId) (m : Method β) (args : List Value) : Action β σ Unit := do
  match ← Action.attempt (e.invokeInitializer id m args) with
  | .ok _ => return
  | .error err =>
    Action.discard id
    throw err

/-- Initializes an instance with the method that was found for it, if there is one. -/
def initializeWith (id : InstanceId) (args : List Value) : FoundMethod β → Action β σ Unit
  | some (_, method) => e.runInitializer id method args
  | none => return

/-- **Creates an instance** and initializes it. -/
def create (type : TypeId) (father : Option InstanceId) (name : String) (args : List Value)
    (element : Bool) : Action β σ InstanceId := do
  let id ← Action.place type father name element
  e.initializeWith id args (← Action.findMethod type initializeName)
  Action.updateIfThere id fun i => { i with state := .live }
  return id

/-- **Creates an instance of a type** under a father, or as a root. -/
def instantiate (typeName : String) (father : Option InstanceId) (name : String)
    (args : List Value) : Action β σ InstanceId := do
  let type ← Action.instantiableType typeName
  Action.ofExcept ((Naming.validate name).mapError .creation)
  match father with
  | some father => Action.ensureAcceptsChildren father "create a child of"
  | none => pure ()
  Action.ensureNameFree father name
  e.create type father name args false

/-- The local names of the children of an instance. -/
def childNames (arena : Arena β) (id : InstanceId) : List String :=
  (arena.childrenOf id).filterMap arena.localName?

/-- **Adds an element.**  The father's rules see the name of the type first and can refuse it; then
they see the new instance and can keep it from being an element. -/
def addElement (father : InstanceId) (typeName : String) (args : List Value) :
    Action β σ ElementOutcome := do
  Action.ensureAcceptsChildren father "add an element to"
  let type ← Action.instantiableType typeName
  let typeSymbol : Symbol := ⟨(← Action.model).types.name type⟩
  match ← e.callRules father Reason.createElement.symbol none (.symbol typeSymbol) with
  | .rejected rejection => return .rejected rejection
  | .passed _ =>
    let _ ← Action.find father
    let name := Naming.nextElementName (childNames (← Action.model).arena father)
    let child ← e.create type (some father) name args true
    match ← e.callRules father Reason.newElement.symbol none (.ref child) with
    | .passed _ => return .accepted child
    | .rejected rejection =>
      Action.update child fun i => { i with element := false }
      return .demoted child rejection

/-- Asks the father's rules whether an element may be removed.  They may have removed it
themselves. -/
def askRemoval (id : InstanceId) (i : Instance β) : Action β σ (Option Rejection) := do
  match i.father with
  | none => return none
  | some father =>
    if !i.element then return none
    match ← e.callRules father Reason.removeElement.symbol none (.ref id) with
    | .rejected rejection => return some rejection
    | .passed _ =>
      let _ ← Action.find id
      return none

/-- Removes an instance and all below it, unless its father's rules reject that. -/
def removeIfGranted (id : InstanceId) (i : Instance β) : Action β σ RemoveOutcome := do
  match ← e.askRemoval id i with
  | some rejection => return .vetoed rejection
  | none =>
    let _ ← Action.describe id
    let (destroyed, m) := (← Action.model).removeSubtree id i.father
    Action.modifyModel fun _ => m
    return .removed destroyed

/-- **Removes an instance and all below it.** -/
def remove (id : InstanceId) : Action β σ RemoveOutcome := do
  let i ← Action.find id
  if i.state ≠ .live then
    throw (.hierarchy (.invalidState (← Action.describe id) i.state.label "remove"))
  Action.ensureNoneBusy "remove" ((← Action.model).arena.preorder id)
  match i.father with
  | some father => Action.ensureNotBusy father "remove a child of"
  | none => pure ()
  e.removeIfGranted id i

end Engine

end ProductModel
