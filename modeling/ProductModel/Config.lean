import ProductModel.Error
import ProductModel.Json.Exchange
import ProductModel.Toml.Reader
import ProductModel.Toml.Writer

/-!
# Configuration

The settings of a world, kept in a TOML file.  A setting that the file leaves out has its
default, and what the file holds besides the settings is ignored.
-/

namespace ProductModel

/-- **The settings of a world.** -/
structure Config where
  /-- whether a record of every rule that runs is written to the log -/
  traceRules : Bool := false
  /-- whether values are checked against their property definitions when they are set -/
  validateProperties : Bool := true
  /-- whether method lookups are remembered -/
  dispatchCache : Bool := true
  /-- the filter of the log -/
  logFilter : String := "info"
  deriving DecidableEq, Repr, Inhabited

namespace Config

/-- A truth value among the entries of a document; one of another kind is refused. -/
def readBool (entries : Toml.Entries) (key : String) (default : Bool) : Option Bool :=
  match Toml.get? entries key with
  | none => some default
  | some (.bool b) => some b
  | some _ => none

/-- A text among the entries of a document; one of another kind is refused. -/
def readString (entries : Toml.Entries) (key : String) (default : String) : Option String :=
  match Toml.get? entries key with
  | none => some default
  | some (.string s) => some s
  | some _ => none

/-- The settings that a document describes. -/
def ofToml? (text : String) : Option Config := do
  let entries ← Toml.ofText? text
  let defaults : Config := {}
  return {
    traceRules := ← readBool entries "trace_rules" defaults.traceRules
    validateProperties := ← readBool entries "validate_properties" defaults.validateProperties
    dispatchCache := ← readBool entries "dispatch_cache" defaults.dispatchCache
    logFilter := ← readString entries "log_filter" defaults.logFilter }

/-- **The settings in a file**, given its text if it could be read, else the reason why not. -/
def load (path : String) (content : Except String String) : Except ConfigError Config :=
  match content with
  | .error source => .error (.read path source)
  | .ok text =>
    match ofToml? text with
    | some config => .ok config
    | none => .error (.parse path "invalid document")

/-- **The document that describes settings**; every setting is written. -/
def toToml (c : Config) : String :=
  "trace_rules = " ++ Toml.writeBool c.traceRules ++ "\n"
    ++ "validate_properties = " ++ Toml.writeBool c.validateProperties ++ "\n"
    ++ "dispatch_cache = " ++ Toml.writeBool c.dispatchCache ++ "\n"
    ++ "log_filter = " ++ Toml.writeString c.logFilter ++ "\n"

instance : Exchange Config where
  encode c := .record
    [("trace_rules", Exchange.encode c.traceRules),
      ("validate_properties", Exchange.encode c.validateProperties),
      ("dispatch_cache", Exchange.encode c.dispatchCache),
      ("log_filter", Exchange.encode c.logFilter)]
  decode depth j := do
    let fs ← Exchange.readFields
      ["trace_rules", "validate_properties", "dispatch_cache", "log_filter"] depth j
    let defaults : Config := {}
    return {
      traceRules := ← fs.withDefault "trace_rules" defaults.traceRules
      validateProperties := ← fs.withDefault "validate_properties" defaults.validateProperties
      dispatchCache := ← fs.withDefault "dispatch_cache" defaults.dispatchCache
      logFilter := ← fs.withDefault "log_filter" defaults.logFilter }

end Config

end ProductModel
