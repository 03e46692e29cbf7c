import ProductModel.CommandLine.Arguments
import ProductModel.Showroom.Demo

/-!
# The command line

`answer` says what the program prints and how it ends, given the settings that it was told to use.
Nothing here touches a file: the text of the file with settings is an argument.
-/

namespace ProductModel.CommandLine

/-- **What the program answers.** -/
structure Reply where
  status : Nat
  output : String := ""
  /-- what is wrong, if anything is -/
  complaint : String := ""
  deriving DecidableEq, Repr

/-- The name and number that tell versions apart. -/
def versionText : String := "ofml 0.1.0\n"

/-- Lines of text, each of them ended. -/
def unlines (lines : List String) : String := String.join (lines.map (· ++ "\n"))

/-- The lines about options that every command has. -/
def commonOptions : List String :=
  ["      --config <CONFIG>  Runtime config file (TOML)",
    "  -h, --help             Print help"]

/-- The lines about the commands. -/
def commandList : List String :=
  ["  demo    Build the showroom program and walk through element and property edits",
    "  config  Print the effective runtime configuration as TOML",
    "  help    Print this message or the help of the given subcommand(s)"]

/-- The help text about a topic. -/
def helpText : Topic → String
  | .program => unlines (["OFML object model runtime", "", "Usage: ofml [OPTIONS] <COMMAND>", "",
      "Commands:"] ++ commandList ++ ["", "Options:"] ++ commonOptions
      ++ ["  -V, --version          Print version"])
  | .demo => unlines (["Build the showroom program and walk through element and property edits",
      "", "Usage: ofml demo [OPTIONS]", "", "Options:",
      "      --json             Print the steps and the final instance tree as JSON"]
      ++ commonOptions)
  | .config => unlines (["Print the effective runtime configuration as TOML", "",
      "Usage: ofml config [OPTIONS]", "", "Options:"] ++ commonOptions)
  | .help => unlines ["Print this message or the help of the given subcommand(s)", "",
      "Usage: ofml help [COMMAND]...", "", "Arguments:",
      "  [COMMAND]...  Print help for the subcommand(s)"]

/-- The reply to arguments that are not understood. -/
def usageReply : Reply where
  status := 2
  complaint := unlines ["Usage: ofml [OPTIONS] <COMMAND>", "",
    "For more information, try \x27--help\x27."]

/-- The reply to a request that fails. -/
def failure (e : ModelError) : Reply where
  status := 1
  complaint := unlines ([s!"Error: {e.code}", e.message] ++ (e.help.map ("help: " ++ ·)).toList)

/-- The reply to the walk through the showroom. -/
def demoReply (json : Bool) (settings : Config) : Reply :=
  match Showroom.demo settings with
  | some (.ok (report, info)) =>
    if json then { status := 0, output := report.encode.toPrettyText ++ "\n" }
    else { status := 0, output := unlines (report.lines info) }
  | some (.error e) => failure e
  | none => { status := 1, complaint := "nested too deep\n" }

/-- The reply of a command with given settings. -/
def Command.reply : Command → Config → Reply
  | .demo json, settings => demoReply json settings
  | .config, settings => { status := 0, output := settings.toToml }

/-- **The reply to a request**, given the text of the file with settings if one is named, or the
reason why it cannot be read. -/
def Request.reply (content : Except String String) : Request → Reply
  | .version => { status := 0, output := versionText }
  | .help topic => { status := 0, output := helpText topic }
  | .run command none => command.reply {}
  | .run command (some path) =>
    match Config.load path content with
    | .ok settings => command.reply settings
    | .error e => failure (.config e)

/-- **The reply to arguments**, given the text of the file that they name. -/
def answer (args : List String) (content : Except String String) : Reply :=
  match Request.ofArguments? args with
  | none => usageReply
  | some request => request.reply content

/-- The file with settings that arguments name. -/
def settingsOf (args : List String) : Option String :=
  (Request.ofArguments? args).bind Request.settings?

end ProductModel.CommandLine
