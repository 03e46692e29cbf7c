import ProductModel.Config
import ProductModel.Instance.Tree
import ProductModel.Types.MethodCache

/-!
# Models and worlds

A model is what programs work on: types, instances, the product data of programs, and the record
of property changes.  A world is a model together with what surrounds it: the configuration, the
cache of method lookups, and the state of the programming language that the bodies are written in.
-/

namespace ProductModel

/-- **The product data of a program**: the types of articles, and code that passes the change of
a property on to others. -/
structure ProductData (β : Type) where
  articles : List (String × String) := []
  evaluate : Option β := none
  deriving Repr

/-- The type of an article. -/
def ProductData.typeOf? {β : Type} (d : ProductData β) (article : String) : Option String :=
  (d.articles.find? (·.1 == article)).map (·.2)

/-- **The keys that running changes have written**, the innermost change first, and those of the
change that ended last. -/
structure ChangeHistory where
  running : List (List Symbol) := []
  last : List Symbol := []
  deriving DecidableEq, Repr

namespace ChangeHistory

/-- Records a key with the innermost running change; a key is recorded once. -/
def record (c : ChangeHistory) (key : Symbol) : ChangeHistory :=
  match c.running with
  | [] => c
  | keys :: outer =>
    if keys.contains key then c else { c with running := (keys ++ [key]) :: outer }

/-- **The keys of the innermost running change**, or of the one that ended last. -/
def current (c : ChangeHistory) : List Symbol := c.running.headD c.last

/-- Forgets the change that ended last. -/
def clearLast (c : ChangeHistory) : ChangeHistory := { c with last := [] }

/-- Starts a change. -/
def start (c : ChangeHistory) : ChangeHistory := { c with running := [] :: c.running }

/-- Ends the innermost change. -/
def finish (c : ChangeHistory) : ChangeHistory :=
  { running := c.running.tail, last := c.running.headD [] }

end ChangeHistory

/-- **A model.** -/
structure Model (β : Type) where
  types : Registry β := {}
  arena : Arena β := {}
  changes : ChangeHistory := {}
  /-- the product data of programs -/
  products : Association InstanceId (ProductData β) := {}
  deriving Repr

/-- **A model and its surroundings.** -/
structure World (β σ : Type) where
  model : Model β := {}
  config : Config := {}
  cache : MethodCache β := {}
  host : σ
  deriving Repr

namespace Model

variable {β : Type}

instance : Inhabited (Model β) := ⟨{}⟩

/-- The stage of an instance's life. -/
def state (m : Model β) (id : InstanceId) : InstanceState :=
  ((m.arena.get? id).map (·.state)).getD .destroyed

/-- The type of a name, or the error of an unknown one. -/
def lookupType (m : Model β) (name : String) : Except ModelError TypeId :=
  match m.types.lookup name with
  | some id => .ok id
  | none => .error (.creation (.unknownType name))

/-- Whether an instance is of a type or one of its subtypes; no instance is of an unknown type. -/
def isA (m : Model β) (id : InstanceId) (typeName : String) : Except ModelError Bool := do
  let i ← m.arena.find id
  return (m.types.lookup typeName).any (m.types.isSubtypeOf i.type)

/-- Whether the type of an instance has a category. -/
def isCat (m : Model β) (id : InstanceId) (category : Symbol) : Except ModelError Bool := do
  let i ← m.arena.find id
  return m.types.hasCategory i.type category

/-- The elements of an instance. -/
def elements (m : Model β) (id : InstanceId) : Except ModelError (List InstanceId) := do
  let _ ← m.arena.find id
  return m.arena.elementsOf id

/-- **The program of an instance**: the one that was assigned to it, as long as it is there, else
its root. -/
def programOf (m : Model β) (id : InstanceId) : Except ModelError InstanceId := do
  let i ← m.arena.find id
  match i.program with
  | some program => return if m.arena.contains program then program else m.arena.rootOf id
  | none => return m.arena.rootOf id

/-- The product data that apply to an instance. -/
def productDataOf (m : Model β) (id : InstanceId) : Except ModelError (Option (ProductData β)) := do
  return m.products.get? (← m.programOf id)

/-- The type of an article, as the program of an instance knows it. -/
def articleToType (m : Model β) (id : InstanceId) (article : String) :
    Except ModelError (Option String) := do
  return (← m.productDataOf id).bind (·.typeOf? article)

/-- Changes an instance. -/
def modify (m : Model β) (id : InstanceId) (f : Instance β → Instance β) : Model β :=
  { m with arena := m.arena.modify id f }

/-- **Removes a subtree** with the product data kept for it, and takes its top off the father's
children.  An instance is in its last stage while what lies below it goes.  Gives the removed
instances, children before their father. -/
def removeSubtree (m : Model β) (id : InstanceId) (father : Option InstanceId) :
    List InstanceId × Model β :=
  let doomed := m.arena.postorder id
  let arena := m.arena.modifyAll doomed fun i => { i with state := .removing }
  let arena := arena.removeAll doomed
  let arena := match father with
    | some father =>
      arena.modify father fun i => { i with children := i.children.filter (· ≠ id) }
    | none => arena
  (doomed, { m with arena, products := doomed.foldl Association.erase m.products })

end Model

/-- **The counts that describe a world.** -/
structure WorldInfo where
  types : Nat
  instances : Nat
  roots : Nat
  cache : CacheStats
  deriving DecidableEq, Repr

namespace WorldInfo

/-- The line for the number of symbols. -/
def symbolsLine (symbols : Nat) : String := s!"  symbols:      {symbols}"

/-- The lines that show the counts; the number of symbols is shown where it is known. -/
def lines (i : WorldInfo) (symbols : Option Nat) : List String :=
  ["OFML runtime info", s!"  types:        {i.types}", s!"  instances:    {i.instances}",
    s!"  roots:        {i.roots}"]
    ++ (symbols.map symbolsLine).toList
    ++ ["  cache:        " ++ s!"{i.cache.entries} entries, {i.cache.hits} hits, "
        ++ s!"{i.cache.misses} misses"]

end WorldInfo

/-- The counts of a world. -/
def World.info {β σ : Type} (w : World β σ) : WorldInfo where
  types := w.model.types.size
  instances := w.model.arena.size
  roots := w.model.arena.roots.length
  cache := w.cache.stats

end ProductModel
