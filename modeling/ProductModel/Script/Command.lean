import ProductModel.Script.Answer

/-!
# Commands of scripts

A command performs an operation or asks a question and has an answer.  Its operands are
expressions, evaluated in the order in which they are listed; only the questions about types, and
the redefinition of a type, spell out the names they are about.
-/

namespace ProductModel.Script

/-- The parts of an instance's flags that a command sets. -/
structure FlagChange where
  selectable : Option Bool := none
  hierSelectable : Option Bool := none
  cutMode : Option CutMode := none
  collisionDetection : Option Bool := none
  resolution : Option Float := none
  deriving Repr

/-- Flags after a change. -/
def FlagChange.apply (c : FlagChange) (f : InstanceFlags) : InstanceFlags where
  selectable := c.selectable.getD f.selectable
  hierSelectable := c.hierSelectable.getD f.hierSelectable
  cutMode := c.cutMode.getD f.cutMode
  collisionDetection := c.collisionDetection.getD f.collisionDetection
  resolution := c.resolution.getD f.resolution

/-- **A command.**  Instances and values are expressions, and so are names, save those in a
question about types. -/
inductive Command (β : Type) where
  /- types -/
  | register (d : TypeDef β)
  | redefine (type : String) (d : TypeDef β)
  | lookupType (type : Expr)
  | typeInfo (type : String)
  | types
  | subtype (a b : String)
  | hasCategory (type : String) (category : Symbol)
  | declaresField (type : String) (name : Symbol)
  | hasMethod (type : String) (name : Symbol)
  | findMethod (type : String) (name : Symbol)
  | findOperator (type : String) (op : Option BinaryOp)
  | ruleChain (type : String) (cause : Symbol) (phase : Option RuleKind)
  | cacheLookup (type : String) (name : Symbol)
  | cacheClear
  | cacheStats
  | eval (v : Expr)
  | fail
  /- the tree -/
  | instantiate (father : Option Expr) (type name : Expr) (args : List Expr)
  | addElement (on type : Expr) (args : List Expr)
  | remove (on : Expr)
  | rename (on name : Expr)
  | beElement (on : Expr)
  | unBeElement (on : Expr)
  | state (on : Expr)
  | contains (on : Expr)
  | typeOf (on : Expr)
  | children (on : Expr)
  | elements (on : Expr)
  | subtree (on : Expr)
  | father (on : Expr)
  | root (on : Expr)
  | localName (on : Expr)
  | absoluteName (on : Expr)
  | cachedName (on : Expr)
  | describe (on : Expr)
  | order (on : Expr)
  | isChanged (on : Expr)
  | isBusy (on : Expr)
  | childByName (on name : Expr)
  | isA (on type : Expr)
  | isCat (on category : Expr)
  | flags (on : Expr)
  | snapshot (on : Expr) (asText : Bool)
  | roots
  | count
  | rootByName (name : Expr)
  | find (path : Expr)
  | info
  | infoText
  | instanceView (on : Expr)
  | setChanged (on value : Expr)
  | setFlags (on : Expr) (change : FlagChange)
  | dump
  /- attributes and methods -/
  | resolve (on name : Expr)
  | getAttr (on name : Expr)
  | setAttr (on name value : Expr)
  | call (on name : Expr) (args : List Expr)
  | callStatic (type name : Expr) (args : List Expr)
  | callSuper (ifAny : Bool) (type on name : Expr) (args : List Expr)
  /- rules -/
  | callRules (on cause arg : Expr) (phase : Option RuleKind)
  | sweep (kind : Sweep) (on : Expr)
  | isStorable (on : Expr)
  /- properties -/
  | setupProperty (on : Expr) (d : PropertyDef)
  | propDef (on key : Expr)
  | propertyKeys (on : Expr)
  | removeProperty (on key : Expr)
  | setPropState (on key : Expr) (state : PropertyState)
  | propState (on key : Expr)
  | getProp (on key : Expr)
  | writeProp (on key value : Expr)
  | setProp (on key value : Expr)
  | changedProps
  | choices (on key : Expr)
  /- consistency -/
  | check (on : Expr)
  | log (order : Option Nat)
  | logClear
  /- geometry and product data -/
  | attachGeometry (on : Expr) (geometry : Geometry β)
  | localBounds (on : Expr)
  | setProductData (on : Expr) (data : ProductData β)
  | setProgram (on program : Expr)
  | programOf (on : Expr)
  | articleToType (on article : Expr)
  /- placement -/
  | position (on : Expr)
  | rotation (on : Expr)
  | setPosition (on : Expr) (position : Vec3)
  | translate (on : Expr) (delta : Vec3)
  | rotate (on : Expr) (axis : Axis) (angle : Float)
  | pick (on : Expr)
  | worldPosition (on : Expr)
  /- the showroom -/
  | installShowroom
  | buildShowroom (shelves : Option Nat)

namespace Command

variable {β : Type}

/-- What is shown of a method that was found. -/
def viewMethod (types : Registry β) : FoundMethod β → Option MethodView
  | none => none
  | some (owner, m) => some ⟨m.name, types.name owner, m.arity, m.isStatic⟩

/-- What is shown of a type. -/
def viewType (types : Registry β) (id : TypeId) : Except ModelError (TypeView β) :=
  match types.record? id with
  | none => .error (.creation (.unknownType id.text))
  | some record => .ok {
      id, record
      supertype := (types.supertype id).map types.name
      lineage := (types.lineage id).map types.name }

/-- What is shown of a link. -/
def viewLink (types : Registry β) (link : ChainLink β) : LinkView :=
  ⟨types.name link.definingType, link.rule.reason, link.rule.kind, link.rule.nullary⟩

/-- What is shown of an attribute. -/
def viewAttribute (types : Registry β) : Attribute β → AttributeView
  | .child id => .child id
  | .dynamic v => .dynamic v
  | .field v => .field v
  | .method owner m => .method m.name (types.name owner)

/-- What is shown of an instance. -/
def viewInstance (i : Instance β) : InstanceView where
  busy := i.isBusy
  cachedName := i.memo
  children := i.children
  father := i.father
  localName := i.localName
  selectable := i.flags.selectable
  type := i.type

/-- The type of a name. -/
def typeNamed (name : String) : Action β TypeId := Program.ask (·.lookupType name)

/-- The instance that an expression means, with its handle. -/
def evalFound (scope : Scope) (e : Expr) : Action β (InstanceId × Instance β) := do
  let id ← e.evalInstance scope
  return (id, ← Program.ask (·.arena.find id))

/-- The values of several properties. -/
def getProperties (id : InstanceId) : List Symbol → Action β (List (Symbol × Value))
  | [] => .pure []
  | key :: keys => do
    let v ← Program.call (Op.getProperty id key)
    return (key, v) :: (← getProperties id keys)

/-- The row of an instance: its properties are read first. -/
def dumpRow (id : InstanceId) : Action β DumpRow := do
  let keys := (← Program.ask (·.arena.find id)).properties.keys
  let properties ← getProperties id keys
  let name ← Program.call (Op.absoluteName id)
  let m ← Program.view
  let i ← Program.ofExcept (m.arena.find id)
  return {
    id, name, properties
    typeName := m.types.name i.type
    state := i.state
    order := i.order
    element := i.element
    busy := i.isBusy
    changed := i.changed
    storable := i.storable
    position := i.position
    rotation := i.rotation }

/-- The rows of several instances. -/
def dumpRows : List InstanceId → Action β (List DumpRow)
  | [] => .pure []
  | id :: ids => do
    let row ← dumpRow id
    return row :: (← dumpRows ids)

/-- The rows of the subtrees of several roots. -/
def dumpRoots : List InstanceId → Action β (List DumpRow)
  | [] => .pure []
  | id :: ids => do
    let rows ← dumpRows ((← Program.view).arena.preorder id)
    return rows ++ (← dumpRoots ids)

/-- Gives the shelves of a built showroom names of their own, from the `i`-th on. -/
def bindShelves (s : Session β) : Nat → List InstanceId → Session β
  | _, [] => s
  | i, shelf :: shelves => bindShelves (s.set s!"shelf{i}" (.ref shelf)) (i + 1) shelves

/-- Gives the parts of a built showroom names. -/
def bindRoom (r : Showroom.Room) (s : Session β) : Session β :=
  bindShelves ((s.set "env" (.ref r.environment)).set "cabinet" (.ref r.cabinet)) 1 r.shelves

/-- Checks a subtree and adds the problems to the session's log, those found before an error
too. -/
def checkInto (id : InstanceId) : Action β (Answer β) := do
  let log := (← Program.state).log
  let result ← Program.call (Op.checkConsistency id log)
  Program.modifyState fun s => { s with log := result.log }
  return .count (← Program.ofExcept result.found)

/-- What is shown of the session's log: all of it, or the problems of one instance. -/
def viewLog (log : ProblemLog) (order : Option Nat) : LogView where
  isEmpty := log.isEmpty
  size := log.size
  problems := match order with
    | none => log.toList
    | some order => log.problemsOf order

/-- Looks up a method in the session's own cache. -/
def lookupBeside (id : TypeId) (name : Symbol) : Action β (Answer β) := do
  let types := (← Program.view).types
  let (found, cache) := (← Program.state).cache.lookup types id name
  Program.modifyState fun s => { s with cache }
  return .lookup (viewMethod types found) cache.stats

/-- **The answer of a command.**  The code of the showroom is embedded by `code`. -/
def exec (code : Showroom.Routine → β) (scope : Scope) : Command β → Action β (Answer β)
  | .register d => do return .type (← Program.call (Op.register d))
  | .redefine type d => do return .type (← Program.call (Op.redefine type d))
  | .lookupType type => do return .type (← typeNamed (← type.evalName scope))
  | .typeInfo type => do
    let id ← typeNamed type
    return .typeInfo (← Program.ask fun m => viewType m.types id)
  | .types => do
    let types := (← Program.view).types
    return .types ⟨types.epoch, types.ids.map types.name⟩
  | .subtype a b => do
    let a ← typeNamed a
    let b ← typeNamed b
    return .flag ((← Program.view).types.isSubtypeOf a b)
  | .hasCategory type category => do
    let id ← typeNamed type
    return .flag ((← Program.view).types.hasCategory id category)
  | .declaresField type name => do
    let id ← typeNamed type
    return .flag ((← Program.view).types.declaresField id name)
  | .hasMethod type name => do
    let id ← typeNamed type
    return .flag ((← Program.view).types.ownMethod? id name).isSome
  | .findMethod type name => do
    let id ← typeNamed type
    let found ← Program.call (Op.findMethod id name)
    return .method (viewMethod (← Program.view).types found)
  | .findOperator type op => do
    let id ← typeNamed type
    let types := (← Program.view).types
    return .operator ((op.bind (types.findOperator id)).map (·.name))
  | .ruleChain type cause phase => do
    let id ← typeNamed type
    let types := (← Program.view).types
    return .chain ((types.ruleChain id cause phase).map (viewLink types))
  | .cacheLookup type name => do lookupBeside (← typeNamed type) name
  | .cacheClear => do
    Program.modifyState fun s => { s with cache := s.cache.clear }
    return .stats (← Program.state).cache.stats
  | .cacheStats => do return .stats (← Program.call Op.info).cache
  | .eval v => do return .value (← v.eval scope)
  | .fail => .fail (.dispatch .divisionByZero)
  | .instantiate above type name args => do
    let above ← match above with
      | some e => do pure (some (← e.evalInstance scope))
      | none => pure none
    let typeName ← type.evalName scope
    let name ← name.evalName scope
    let args ← Expr.evalAll scope args
    return .value (.ref (← Program.call (Op.instantiate typeName above name args)))
  | .addElement on type args => do
    let id ← on.evalInstance scope
    let typeName ← type.evalName scope
    let args ← Expr.evalAll scope args
    return .element (← Program.call (Op.addElement id typeName args))
  | .remove on => do
    let id ← on.evalInstance scope
    return .removal (← Program.call (Op.remove id))
  | .rename on name => do
    let id ← on.evalInstance scope
    let name ← name.evalName scope
    Program.call (Op.rename id name)
    return .done
  | .beElement on => do
    let id ← on.evalInstance scope
    Program.call (Op.beElement id)
    return .done
  | .unBeElement on => do
    let id ← on.evalInstance scope
    Program.call (Op.unBeElement id)
    return .done
  | .state on => do
    let id ← on.evalInstance scope
    return .state ((← Program.view).state id)
  | .contains on => do
    let id ← on.evalInstance scope
    return .flag ((← Program.view).arena.contains id)
  | .typeOf on => do
    let (_, i) ← evalFound scope on
    return .typeOf i.type ((← Program.view).types.name i.type)
  | .children on => do return .instances (← evalFound scope on).2.children
  | .elements on => do
    let id ← on.evalInstance scope
    return .instances (← Program.ask (·.elements id))
  | .subtree on => do
    let (id, _) ← evalFound scope on
    return .instances ((← Program.view).arena.preorder id)
  | .father on => do return .instance? (← evalFound scope on).2.father
  | .root on => do
    let (id, _) ← evalFound scope on
    return .instance? (some ((← Program.view).arena.rootOf id))
  | .localName on => do return .text (← evalFound scope on).2.localName
  | .absoluteName on => do
    let id ← on.evalInstance scope
    return .text (← Program.call (Op.absoluteName id))
  | .cachedName on => do return .optText (← evalFound scope on).2.memo
  | .describe on => do
    let id ← on.evalInstance scope
    return .text (← Program.call (Op.describe id))
  | .order on => do return .count (← evalFound scope on).2.order
  | .isChanged on => do return .flag (← evalFound scope on).2.changed
  | .isBusy on => do return .flag (← evalFound scope on).2.isBusy
  | .childByName on name => do
    let id ← on.evalInstance scope
    let name ← name.evalName scope
    let _ ← Program.ask (·.arena.find id)
    return .instance? ((← Program.view).arena.childNamed id name)
  | .isA on type => do
    let id ← on.evalInstance scope
    let typeName ← type.evalName scope
    return .flag (← Program.ask (·.isA id typeName))
  | .isCat on category => do
    let id ← on.evalInstance scope
    let category ← category.evalSymbol scope
    return .flag (← Program.ask (·.isCat id category))
  | .flags on => do return .flags (← evalFound scope on).2.flags
  | .snapshot on asText => do
    let id ← on.evalInstance scope
    return .snapshot (← Program.call (Op.snapshot id)) asText
  | .roots => do return .instances (← Program.view).arena.roots
  | .count => do return .count (← Program.view).arena.size
  | .rootByName name => do
    let name ← name.evalName scope
    return .instance? ((← Program.view).arena.rootNamed name)
  | .find path => do
    let path ← path.evalName scope
    return .instance? ((← Program.view).arena.find? path)
  | .info => do return .info (← Program.call Op.info)
  | .infoText => do return .infoText (← Program.call Op.info)
  | .instanceView on => do return .instanceView (viewInstance (← evalFound scope on).2)
  | .setChanged on value => do
    let id ← on.evalInstance scope
    let v ← value.eval scope
    Program.call (Op.setChanged id v.isTruthy)
    return .done
  | .setFlags on change => do
    let (id, i) ← evalFound scope on
    Program.call (Op.setFlags id (change.apply i.flags))
    return .done
  | .dump => do return .dump (← dumpRoots (← Program.view).arena.roots)
  | .resolve on name => do
    let id ← on.evalInstance scope
    let name ← name.evalSymbol scope
    let meaning ← Program.call (Op.resolve id name)
    return .meaning (viewAttribute (← Program.view).types meaning)
  | .getAttr on name => do
    let id ← on.evalInstance scope
    let name ← name.evalSymbol scope
    return .value (← Program.call (Op.getAttr id name))
  | .setAttr on name value => do
    let id ← on.evalInstance scope
    let name ← name.evalSymbol scope
    let v ← value.eval scope
    Program.call (Op.setAttr id name v)
    return .done
  | .call on name args => do
    let id ← on.evalInstance scope
    let name ← name.evalSymbol scope
    let args ← Expr.evalAll scope args
    return .value (← Program.call (Op.call id name args))
  | .callStatic type name args => do
    let typeName ← type.evalName scope
    let name ← name.evalSymbol scope
    let args ← Expr.evalAll scope args
    return .value (← Program.call (Op.callStatic typeName name args))
  | .callSuper ifAny type on name args => do
    let typeName ← type.evalName scope
    let id ← on.evalInstance scope
    let name ← name.evalSymbol scope
    let args ← Expr.evalAll scope args
    if ifAny then return .value (← Program.call (Op.callSuperIfAny typeName id name args))
    else return .value (← Program.call (Op.callSuper typeName id name args))
  | .callRules on cause arg phase => do
    let id ← on.evalInstance scope
    let cause ← cause.evalSymbol scope
    let arg ← arg.eval scope
    return .outcome (← Program.call (Op.callRules id cause phase arg))
  | .sweep kind on => do
    let id ← on.evalInstance scope
    return .outcome (← Program.call (Op.sweep kind id))
  | .isStorable on => do return .flag (← evalFound scope on).2.storable
  | .setupProperty on d => do
    let id ← on.evalInstance scope
    return .flag (← Program.call (Op.setupProperty id d))
  | .propDef on key => do
    let id ← on.evalInstance scope
    let key ← key.evalSymbol scope
    return .definition ((← Program.ask (·.arena.find id)).properties.get? key)
  | .propertyKeys on => do return .symbols (← evalFound scope on).2.properties.keys
  | .removeProperty on key => do
    let id ← on.evalInstance scope
    let key ← key.evalSymbol scope
    return .flag (← Program.call (Op.removeProperty id key))
  | .setPropState on key mode => do
    let id ← on.evalInstance scope
    let key ← key.evalSymbol scope
    Program.call (Op.setPropertyState id key mode)
    return .done
  | .propState on key => do
    let id ← on.evalInstance scope
    let key ← key.evalSymbol scope
    return .propertyState (← Program.call (Op.propertyState id key))
  | .getProp on key => do
    let id ← on.evalInstance scope
    let key ← key.evalSymbol scope
    return .value (← Program.call (Op.getProperty id key))
  | .writeProp on key value => do
    let id ← on.evalInstance scope
    let key ← key.evalSymbol scope
    let v ← value.eval scope
    Program.call (Op.writeProperty id key v)
    return .done
  | .setProp on key value => do
    let id ← on.evalInstance scope
    let key ← key.evalSymbol scope
    let v ← value.eval scope
    return .flag (← Program.call (Op.setProperty id key v))
  | .changedProps => do return .symbols (← Program.view).changes.current
  | .choices on key => do
    let id ← on.evalInstance scope
    let key ← key.evalSymbol scope
    return .values (← Program.call (Op.choices id key))
  | .check on => do checkInto (← on.evalInstance scope)
  | .log only => do return .log (viewLog (← Program.state).log only)
  | .logClear => do
    Program.modifyState fun s => { s with log := {} }
    return .done
  | .attachGeometry on geometry => do
    let id ← on.evalInstance scope
    Program.call (Op.attachGeometry id geometry)
    return .done
  | .localBounds on => do
    let (id, _) ← evalFound scope on
    return .bounds ((← Program.view).arena.localBounds id)
  | .setProductData on data => do
    let id ← on.evalInstance scope
    Program.call (Op.setProductData id data)
    return .done
  | .setProgram on program => do
    let id ← on.evalInstance scope
    let program ← program.evalInstance scope
    Program.call (Op.setProgram id program)
    return .done
  | .programOf on => do
    let id ← on.evalInstance scope
    return .instance? (some (← Program.ask (·.programOf id)))
  | .articleToType on article => do
    let id ← on.evalInstance scope
    let article ← article.evalName scope
    return .optText (← Program.ask (·.articleToType id article))
  | .position on => do return .vector (← evalFound scope on).2.position
  | .rotation on => do return .vector (← evalFound scope on).2.rotation
  | .setPosition on place => do
    let id ← on.evalInstance scope
    Program.call (Op.setPosition id place)
    return .done
  | .translate on delta => do
    let id ← on.evalInstance scope
    return .outcome (← Program.call (Op.translate id delta))
  | .rotate on axis angle => do
    let id ← on.evalInstance scope
    return .outcome (← Program.call (Op.rotate id axis angle))
  | .pick on => do
    let id ← on.evalInstance scope
    return .instance? (← Program.call (Op.pick id))
  | .worldPosition on => do
    let (id, _) ← evalFound scope on
    return .place ((← Program.view).arena.frameOf id).origin
  | .installShowroom => do
    Showroom.install code
    return .done
  | .buildShowroom shelves => do
    let room ← Showroom.build code (shelves.getD Showroom.usualShelves)
    Program.modifyState (bindRoom room)
    return .room room

end Command

end ProductModel.Script
