import ProductModel.Association
import ProductModel.Types.TypeDef

/-!
# The type registry

All types of a model, in order of registration.  A registered type keeps its handle and its
qualified name for ever; its definition may be replaced.  The epoch counts registrations and
redefinitions, so that whoever remembers an answer of the registry can tell whether it may have
changed.

## Design

* A name denotes the type of that qualified name, else the one type of that short name.  Both
  indices are kept as types are registered.
* The supertype is resolved when a definition is accepted.  Because a supertype has to be there
  before its subtypes and a redefinition may not close a cycle, the walk up the supertypes ends;
  its length is bounded by the number of types.
* A refused definition changes nothing: all checks come before the first change.
-/

namespace ProductModel

/-- **A registered type**: its current definition, with the supertype and the operators that were
resolved when it was accepted. -/
structure RegisteredType (β : Type) where
  definition : TypeDef β
  supertype : Option TypeId
  operators : List (BinaryOp × Method β)
  /-- the number of redefinitions -/
  generation : Nat := 0
  deriving Repr

/-- **The types of a model.** -/
structure Registry (β : Type) where
  records : List (RegisteredType β) := []
  /-- the handle of every qualified name -/
  byName : Association String TypeId := {}
  /-- the handles of every short name, in order of registration -/
  byShort : Association String (List TypeId) := {}
  epoch : Nat := 0
  deriving Repr

namespace Registry

variable {β : Type}

instance : Inhabited (Registry β) := ⟨{}⟩

/-- The registry without types. -/
def empty : Registry β := {}

/-- The number of types. -/
def size (r : Registry β) : Nat := r.records.length

/-- The handles of all types in order of registration. -/
def ids (r : Registry β) : List TypeId := (List.range r.size).map TypeId.mk

/-- The record of a type. -/
def record? (r : Registry β) (id : TypeId) : Option (RegisteredType β) := r.records[id.index]?

/-- The current definition of a type. -/
def definition? (r : Registry β) (id : TypeId) : Option (TypeDef β) :=
  (r.record? id).map (·.definition)

/-- The qualified name of a type. -/
def name (r : Registry β) (id : TypeId) : String :=
  ((r.definition? id).map TypeDef.qualifiedName).getD ""

/-- The supertype of a type. -/
def supertype (r : Registry β) (id : TypeId) : Option TypeId :=
  (r.record? id).bind (·.supertype)

/-- **The type that a name denotes**: the one of that qualified name, else the only one of that
short name. -/
def lookup (r : Registry β) (name : String) : Option TypeId :=
  match r.byName.get? name with
  | some id => some id
  | none =>
    match r.byShort.get? name with
    | some [id] => some id
    | _ => none

/-- The types from `id` up to the most general one, `limit` steps at most. -/
def climb (r : Registry β) : Nat → TypeId → List TypeId
  | 0, id => [id]
  | limit + 1, id =>
    match r.supertype id with
    | some sup => id :: r.climb limit sup
    | none => [id]

/-- **A type and its supertypes**, the most special one first. -/
def ancestors (r : Registry β) (id : TypeId) : List TypeId := r.climb r.size id

/-- **A type and its supertypes**, the most general one first. -/
def lineage (r : Registry β) (id : TypeId) : List TypeId := (r.ancestors id).reverse

/-- Whether `a` is `b` or extends it, directly or not. -/
def isSubtypeOf (r : Registry β) (a b : TypeId) : Bool := (r.ancestors a).contains b

/-- Whether a type or one of its supertypes declares a category. -/
def hasCategory (r : Registry β) (id : TypeId) (category : Symbol) : Bool :=
  (r.ancestors id).any fun t =>
    ((r.definition? t).map (·.categories.contains category)).getD false

/-- Whether a type or one of its supertypes declares a field. -/
def declaresField (r : Registry β) (id : TypeId) (name : Symbol) : Bool :=
  (r.ancestors id).any fun t => ((r.definition? t).map (·.declaresField name)).getD false

/-- The method that a type itself declares. -/
def ownMethod? (r : Registry β) (id : TypeId) (name : Symbol) : Option (Method β) :=
  (r.definition? id).bind (·.method? name)

/-- **The method of a name**, of the most special type that declares it, with that type. -/
def findMethod (r : Registry β) (id : TypeId) (name : Symbol) : Option (TypeId × Method β) :=
  (r.ancestors id).findSome? fun t => (r.ownMethod? t name).map (t, ·)

/-- The operator that a type itself provides. -/
def ownOperator? (r : Registry β) (id : TypeId) (op : BinaryOp) : Option (Method β) :=
  (r.record? id).bind fun record => record.operators.lookup op

/-- **The method of an operator**, inherited as methods are. -/
def findOperator (r : Registry β) (id : TypeId) (op : BinaryOp) : Option (Method β) :=
  (r.ancestors id).findSome? (r.ownOperator? · op)

/-- **The chain of a reason**: the rules along the lineage, the most general type's first, those of
one type in order of declaration.  A phase keeps the rules of one kind. -/
def ruleChain (r : Registry β) (id : TypeId) (reason : Symbol) (phase : Option RuleKind) :
    List (ChainLink β) :=
  (r.lineage id).flatMap fun t =>
    match r.definition? t with
    | some d =>
      ((d.rulesFor reason).filter fun rule => phase.all (rule.kind == ·)).map (ChainLink.mk t)
    | none => []

/-- The fields of an instance of a type at its creation.  The initial values of special types
replace those of general ones. -/
def initialFields (r : Registry β) (id : TypeId) : Association Symbol Value :=
  (r.lineage id).foldl (fun fields t =>
    match r.definition? t with
    | some d => d.fields.foldl (fun fields f => fields.insert f.name f.init) fields
    | none => fields) {}

/-- The type that may be extended under a name. -/
def resolveSupertype (r : Registry β) (name supertype : String) : Except TypeError TypeId :=
  match r.lookup supertype with
  | none => .error (.unknownSupertype name supertype)
  | some id =>
    if (r.definition? id).any (·.isFinal) then .error (.finalSupertype name (r.name id))
    else .ok id

/-- The operators of a definition. -/
def resolveOperators (name : String) (d : TypeDef β) :
    Except TypeError (List (BinaryOp × Method β)) :=
  match collectOperators d.methods with
  | .ok operators => .ok operators
  | .error method => .error (.invalidOperator name method)

/-- The supertype of a new definition.  A type cannot extend itself. -/
def newSupertype (r : Registry β) (d : TypeDef β) : Except TypeError (Option TypeId) :=
  match d.supertype with
  | none => .ok none
  | some sup =>
    if sup = d.qualifiedName ∨ sup = d.name then .error (.cyclicSupertype d.qualifiedName sup)
    else (r.resolveSupertype d.qualifiedName sup).map some

/-- Adds a record under its names. -/
def append (r : Registry β) (record : RegisteredType β) : Registry β :=
  let id : TypeId := ⟨r.size⟩
  let short := record.definition.name
  { records := r.records ++ [record]
    byName := r.byName.insert record.definition.qualifiedName id
    byShort := r.byShort.insert short ((r.byShort.get? short).getD [] ++ [id])
    epoch := r.epoch + 1 }

/-- The number of types that handles can tell apart. -/
def capacity : Nat := UInt32.size

/-- **Registers a type.**  Its qualified name has to be new, its supertype has to be there and
must not be final, and every method named for an operator has to name one. -/
def register (r : Registry β) (d : TypeDef β) : Except TypeError (TypeId × Registry β) := do
  let name := d.qualifiedName
  if r.byName.contains name then throw (.duplicateType name)
  let supertype ← r.newSupertype d
  let operators ← resolveOperators name d
  if capacity ≤ r.size then throw (.tooManyTypes name)
  return (⟨r.size⟩, r.append { definition := d, supertype, operators })

/-- The first type that directly extends a type. -/
def firstSubtype? (r : Registry β) (id : TypeId) : Option TypeId :=
  (r.records.findIdx? (·.supertype == some id)).map TypeId.mk

/-- The supertype of a replacement.  It must not be the type itself or one of its subtypes. -/
def replacedSupertype (r : Registry β) (id : TypeId) (d : TypeDef β) :
    Except TypeError (Option TypeId) :=
  match d.supertype with
  | none => .ok none
  | some sup => do
    let supId ← r.resolveSupertype (r.name id) sup
    if r.isSubtypeOf supId id then throw (.cyclicSupertype (r.name id) (r.name supId))
    return some supId

/-- Replaces the record of a type. -/
def replace (r : Registry β) (id : TypeId) (d : TypeDef β) (supertype : Option TypeId)
    (operators : List (BinaryOp × Method β)) : Registry β :=
  { r with
    records := r.records.modify id.index fun record =>
      { definition := d, supertype, operators, generation := record.generation + 1 }
    epoch := r.epoch + 1 }

/-- **Replaces the definition of a type**, which keeps its qualified name.  The new supertype must
not close a cycle, and a type with subtypes cannot become final. -/
def redefine (r : Registry β) (typeName : String) (d : TypeDef β) :
    Except TypeError (TypeId × Registry β) := do
  match r.lookup typeName with
  | none => throw (.unknownType typeName)
  | some id =>
    let current := r.name id
    if d.qualifiedName ≠ current then throw (.renamed current d.qualifiedName)
    let supertype ← r.replacedSupertype id d
    if d.isFinal then
      match r.firstSubtype? id with
      | some sub => throw (.finalSupertype (r.name sub) current)
      | none => pure ()
    let operators ← resolveOperators current d
    return (id, r.replace id d supertype operators)

end Registry

end ProductModel
