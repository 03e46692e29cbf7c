/-!
# Errors

An operation of the model fails for one of the causes listed here, sorted by the area they belong
to.  Each cause has a code, a message and, where there is something to advise, a help text; all
three are part of what a user sees.

A rule that rejects is no error, and neither is a problem found by a consistency check: both are
ordinary results.
-/

namespace ProductModel

/-- **Causes found when a type is registered or redefined.** -/
inductive TypeError where
  | duplicateType (name : String)
  | unknownSupertype (name supertype : String)
  | finalSupertype (name supertype : String)
  | cyclicSupertype (name supertype : String)
  | unknownType (name : String)
  | renamed (name newName : String)
  | invalidOperator (name method : String)
  | tooManyTypes (name : String)
  deriving DecidableEq, Repr

/-- **Causes found when an instance is to be created or named.** -/
inductive CreationError where
  | abstractType (name : String)
  | unknownType (name : String)
  | malformedName (name : String)
  | reservedName (name : String)
  | duplicateName (father name : String)
  | duplicateRoot (name : String)
  deriving DecidableEq, Repr

/-- **Causes found when an attribute, a method or an operator is applied.** -/
inductive DispatchError where
  | noSuchAttribute (receiver name : String)
  | typeMismatch (operation operands : String)
  | divisionByZero
  | notCallable (name : String)
  | methodAsValue (name : String)
  | arity (name : String) (expected actual : Nat)
  | missingReceiver (name : String)
  deriving DecidableEq, Repr

/-- **Causes that concern the tree of instances.** -/
inductive HierarchyError where
  | reentrancy (instanceName operation : String)
  | destroyed (id : String)
  | notAnElement (instanceName : String)
  | invalidState (instanceName state operation : String)
  | arenaFull (live : Nat)
  deriving DecidableEq, Repr

/-- **Causes found when a property is written or looked up.** -/
inductive PropertyError where
  | invalidValue (property message : String)
  | disabled (property : String)
  | unknown (property instanceName : String)
  deriving DecidableEq, Repr

/-- **Causes found when a configuration is loaded or written.** -/
inductive ConfigError where
  | read (path source : String)
  | parse (path message : String)
  | render (message : String)
  deriving DecidableEq, Repr

/-- **An error of any area.** -/
inductive ModelError where
  | type (cause : TypeError)
  | creation (cause : CreationError)
  | dispatch (cause : DispatchError)
  | hierarchy (cause : HierarchyError)
  | property (cause : PropertyError)
  | config (cause : ConfigError)
  deriving DecidableEq, Repr

/-- **What a user is told about an error**: a stable code, a message, advice if there is any, and
the text of the cause beneath it if there is one. -/
structure Diagnostic where
  code : String
  message : String
  help : Option String := none
  source : Option String := none
  deriving DecidableEq, Repr

namespace TypeError

/-- The report of a cause. -/
def diagnostic : TypeError → Diagnostic
  | duplicateType name =>
    { code := "ofml::translation::duplicate_type"
      message := s!"type {name} is already defined"
      help := some ("Type names are unique within their package. "
        ++ "Use `redefine` to replace a type.") }
  | unknownSupertype name supertype =>
    { code := "ofml::translation::unknown_supertype"
      message := s!"type {name} extends unknown type {supertype}"
      help := some "Register the supertype before any type that extends it." }
  | finalSupertype name supertype =>
    { code := "ofml::translation::final_supertype"
      message := s!"type {name} cannot extend final type {supertype}"
      help := some ("The supertype is declared non-extensible. "
        ++ "Derive from one of its ancestors instead.") }
  | cyclicSupertype name supertype =>
    { code := "ofml::translation::cyclic_supertype"
      message := s!"making {supertype} the supertype of {name} closes a cycle"
      help := some ("The supertype relation must form a tree. "
        ++ s!"Check the chain starting at {supertype}.") }
  | unknownType name =>
    { code := "ofml::translation::unknown_type"
      message := s!"cannot redefine unknown type {name}"
      help := some "Only registered types can be redefined. Register it first." }
  | renamed name newName =>
    { code := "ofml::translation::renamed_redefinition"
      message := s!"redefinition of {name} would rename it to {newName}"
      help := some ("A type name is immutable once registered; "
        ++ "the replacement record must keep it.") }
  | invalidOperator name method =>
    { code := "ofml::translation::invalid_operator"
      message := s!"method {method} of type {name} is not a valid operator handler"
      help := some ("Operator handlers are named `operator<token>`, "
        ++ "e.g. `operator+` or `operator==`.") }
  | tooManyTypes name =>
    { code := "ofml::translation::too_many_types"
      message := s!"cannot register {name}: the type table is full" }

end TypeError

namespace CreationError

/-- The report of a cause. -/
def diagnostic : CreationError → Diagnostic
  | abstractType name =>
    { code := "ofml::instantiation::abstract_type"
      message := s!"cannot instantiate abstract type {name}"
      help := some s!"Instantiate one of the concrete subtypes of {name}." }
  | unknownType name =>
    { code := "ofml::instantiation::unknown_type"
      message := s!"unknown type {name}"
      help := some ("Check the spelling, or use the package-qualified name "
        ++ "if the short name is ambiguous.") }
  | malformedName name =>
    { code := "ofml::instantiation::malformed_name"
      message := s!"malformed instance name \"{name}\""
      help := some "Names start with a letter, followed by letters, digits or underscores." }
  | reservedName name =>
    { code := "ofml::instantiation::reserved_name"
      message := s!"instance name \"{name}\" is reserved for elements"
      help := some ("Names of the form e<digits> are generated for elements. "
        ++ "Choose another name.") }
  | duplicateName father name =>
    { code := "ofml::instantiation::duplicate_name"
      message := s!"{father} already has a child named \"{name}\""
      help := some ("Sibling names must be unique. "
        ++ "Choose another name or remove the existing child.") }
  | duplicateRoot name =>
    { code := "ofml::instantiation::duplicate_root"
      message := s!"a root instance named \"{name}\" already exists"
      help := some "Root names must be unique among roots." }

end CreationError

namespace DispatchError

/-- The report of a cause. -/
def diagnostic : DispatchError → Diagnostic
  | noSuchAttribute receiver name =>
    { code := "ofml::dispatch::no_such_attribute"
      message := s!"{receiver} has no attribute {name}"
      help := some ("Neither a child, a dynamic property, a field nor a method of that name "
        ++ "exists on the receiver or its supertypes.") }
  | typeMismatch operation operands =>
    { code := "ofml::dispatch::type_mismatch"
      message := s!"type mismatch in {operation}: {operands}"
      help := some ("The operands are not supported by the built-in semantics "
        ++ "and no operator handler is declared.") }
  | divisionByZero =>
    { code := "ofml::dispatch::division_by_zero"
      message := "integer division by zero"
      help := some ("Guard the divisor, or use a floating-point operand "
        ++ "to get IEEE semantics.") }
  | notCallable name =>
    { code := "ofml::dispatch::not_callable"
      message := s!"attribute {name} is not callable"
      help := some ("Only methods can be called; "
        ++ "fields, children and dynamic properties are values.") }
  | methodAsValue name =>
    { code := "ofml::dispatch::method_as_value"
      message := s!"attribute {name} is a method, not a value"
      help := some "Call the method through `call_method` instead of reading it." }
  | arity name expected actual =>
    { code := "ofml::dispatch::arity"
      message := s!"{name} expects {expected} argument(s), got {actual}" }
  | missingReceiver name =>
    { code := "ofml::dispatch::missing_receiver"
      message := s!"instance method {name} called without a receiver"
      help := some "Call instance methods through `call_method` with an instance." }

end DispatchError

namespace HierarchyError

/-- The report of a cause. -/
def diagnostic : HierarchyError → Diagnostic
  | reentrancy instanceName operation =>
    { code := "ofml::hierarchy::reentrancy"
      message := s!"cannot {operation} {instanceName} while a rule chain is running on it"
      help := some ("Structural changes to an instance are rejected while rules run against it. "
        ++ "Perform the change after the chain returns.") }
  | destroyed id =>
    { code := "ofml::hierarchy::destroyed"
      message := s!"instance {id} has been destroyed"
      help := some ("Instance references held in values are non-owning "
        ++ "and go stale on removal.") }
  | notAnElement instanceName =>
    { code := "ofml::hierarchy::not_an_element"
      message := s!"{instanceName} is not an element of its father" }
  | invalidState instanceName state operation =>
    { code := "ofml::hierarchy::invalid_state"
      message := s!"cannot {operation} {instanceName} in state {state}" }
  | arenaFull live =>
    { code := "ofml::hierarchy::arena_full"
      message := s!"the instance arena is full ({live} live instances)"
      help := some "Remove unused instances; their slots are reused." }

end HierarchyError

namespace PropertyError

/-- The report of a cause. -/
def diagnostic : PropertyError → Diagnostic
  | invalidValue property message =>
    { code := "ofml::property::invalid_value"
      message := s!"invalid value for property {property}: {message}"
      help := some "Check the property definition's type, bounds and choice list." }
  | disabled property =>
    { code := "ofml::property::disabled"
      message := s!"property {property} is disabled"
      help := some "Enable the property with `set_prop_state` before editing it." }
  | unknown property instanceName =>
    { code := "ofml::property::unknown"
      message := s!"property {property} is not defined on {instanceName}" }

end PropertyError

namespace ConfigError

/-- The report of a cause. -/
def diagnostic : ConfigError → Diagnostic
  | read path source =>
    { code := "ofml::config::read"
      message := s!"failed to read runtime config: {path}"
      help := some "Ensure the config file exists and is readable."
      source := some source }
  | parse path message =>
    { code := "ofml::config::parse"
      message := s!"failed to parse runtime config {path}: {message}"
      help := some "Check the TOML syntax and field names of the config file." }
  | render message =>
    { code := "ofml::config::render"
      message := s!"failed to render runtime config: {message}" }

end ConfigError

namespace ModelError

/-- The area that an error belongs to. -/
def area : ModelError → String
  | type _ => "translation"
  | creation _ => "instantiation"
  | dispatch _ => "dispatch"
  | hierarchy _ => "hierarchy"
  | property _ => "property"
  | config _ => "config"

/-- An error is reported as its cause is. -/
def diagnostic : ModelError → Diagnostic
  | type cause => cause.diagnostic
  | creation cause => cause.diagnostic
  | dispatch cause => cause.diagnostic
  | hierarchy cause => cause.diagnostic
  | property cause => cause.diagnostic
  | config cause => cause.diagnostic

/-- The stable code of an error. -/
def code (e : ModelError) : String := e.diagnostic.code

/-- The message of an error. -/
def message (e : ModelError) : String := e.diagnostic.message

/-- The advice that goes with an error. -/
def help (e : ModelError) : Option String := e.diagnostic.help

end ModelError

end ProductModel
