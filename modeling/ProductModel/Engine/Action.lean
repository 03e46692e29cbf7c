import ProductModel.Program.Operation

/-!
# Actions

An action changes a world and ends with a result or an error; an error keeps the changes made
before it.  Bodies may call operations that run bodies again, to any depth, so an action also has
an allowance for nesting and no outcome at all when that is used up.

* `Action` is the monad of actions, with small steps on the parts of a world.
* `Program.run` runs a program with a handler for its operations.
* `Engine` is what operations need in order to run bodies.
-/

namespace ProductModel

/-- **An action on a world.**  `none` means that the allowance for nesting is used up. -/
abbrev Action (β σ α : Type) := ExceptT ModelError (StateT (World β σ) Option) α

namespace Action

variable {β σ α γ : Type}

/-- The outcome of an action in a world. -/
def outcome (x : Action β σ α) (w : World β σ) : Option (Except ModelError α × World β σ) :=
  (ExceptT.run x).run w

/-- The action that has no outcome. -/
def exhausted : Action β σ α := ExceptT.mk fun _ => none

/-- Carries out an action and turns its error into a result. -/
def attempt (x : Action β σ α) : Action β σ (Except ModelError α) :=
  ExceptT.mk do
    let r ← ExceptT.run x
    return .ok r

/-- The action that a result or an error is. -/
def ofExcept : Except ModelError α → Action β σ α
  | .ok a => pure a
  | .error e => throw e

/-- The model. -/
def model : Action β σ (Model β) := do return (← get).model

/-- The configuration. -/
def config : Action β σ Config := do return (← get).config

/-- Changes the model. -/
def modifyModel (f : Model β → Model β) : Action β σ Unit :=
  modify fun w => { w with model := f w.model }

/-- A question about the model that may fail. -/
def ask (f : Model β → Except ModelError α) : Action β σ α := do ofExcept (f (← model))

/-- The instance of a handle. -/
def find (id : InstanceId) : Action β σ (Instance β) := ask (·.arena.find id)

/-- Changes an instance, which has to be there. -/
def update (id : InstanceId) (f : Instance β → Instance β) : Action β σ Unit := do
  let _ ← find id
  modifyModel (·.modify id f)

/-- Changes an instance if it is there. -/
def updateIfThere (id : InstanceId) (f : Instance β → Instance β) : Action β σ Unit :=
  modifyModel (·.modify id f)

/-- The type of an instance. -/
def typeOf (id : InstanceId) : Action β σ TypeId := do return (← find id).type

/-- The absolute name of an instance; the names on the way are remembered. -/
def absoluteName (id : InstanceId) : Action β σ String := do
  let (name, arena) ← ask (·.arena.absoluteName id)
  modifyModel fun m => { m with arena }
  return name

/-- The name of an instance in messages. -/
def describe (id : InstanceId) : Action β σ String := do
  let (name, arena) := (← model).arena.describe id
  modifyModel fun m => { m with arena }
  return name

/-- **Looks up a method**, through the cache unless the configuration turns it off. -/
def findMethod (id : TypeId) (name : Symbol) : Action β σ (FoundMethod β) := do
  let w ← get
  if w.config.dispatchCache then
    let (found, cache) := w.cache.lookup w.model.types id name
    set { w with cache }
    return found
  else
    return w.model.types.findMethod id name

/-- Refuses an operation on an instance while a rule chain runs on it. -/
def ensureNotBusy (id : InstanceId) (operation : String) : Action β σ Unit := do
  if (← find id).isBusy then
    throw (.hierarchy (.reentrancy (← describe id) operation))

end Action

/-- **Runs a program** of a model with a handler for its operations. -/
def Program.run {ω : Type} {ans : ω → Type} {β σ α : Type}
    (handler : (op : ω) → Action β σ (ans op)) :
    Program ω ans (Model β) σ ModelError α → Action β σ α
  | .pure a => return a
  | .fail e => throw e
  | .perform op next => do
    let r ← Action.attempt (handler op)
    (next r).run handler
  | .look next => do
    let w ← get
    (next w.model w.host).run handler
  | .put host next => do
    modify fun w => { w with host }
    next.run handler

/-- **What operations need in order to run bodies**: the language of the bodies, and a way to run
the programs that they are. -/
structure Engine (β σ : Type) where
  language : Language β σ
  run : {α : Type} → Body β σ α → Action β σ α

end ProductModel
