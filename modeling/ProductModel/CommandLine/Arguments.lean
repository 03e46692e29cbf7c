/-!
# Arguments of the command line

The program has two commands, `demo` and `config`.  The option `--config` names a file with
settings; it may stand before or after the command, once in each place, and the one after the
command counts.

`Request.ofArguments?` reads the arguments; it gives nothing where they are not understood.
-/

namespace ProductModel.CommandLine

/-- **A command.** -/
inductive Command where
  | demo (json : Bool)
  | config
  deriving DecidableEq, Repr

/-- What a help text is about. -/
inductive Topic where
  | program
  | demo
  | config
  | help
  deriving DecidableEq, Repr

/-- **What is asked of the program.** -/
inductive Request where
  | run (command : Command) (settings : Option String)
  | help (topic : Topic)
  | version
  deriving DecidableEq, Repr

/-- **An argument by its form.** -/
inductive Form where
  /-- the mark `--` that no options follow -/
  | mark
  | long (name : String) (value : Option String)
  | short (letters : List Char)
  | word
  deriving DecidableEq, Repr

/-- The name and the value of a long option. -/
def splitLong (cs : List Char) : Form :=
  match cs.dropWhile (· ≠ '=') with
  | [] => .long (String.ofList cs) none
  | _ :: value => .long (String.ofList (cs.takeWhile (· ≠ '='))) (some (String.ofList value))

/-- The form of an argument. -/
def formOf (arg : String) : Form :=
  match arg.toList with
  | ['-', '-'] => .mark
  | '-' :: '-' :: cs => splitLong cs
  | '-' :: c :: cs => .short (c :: cs)
  | _ => .word

/-- Whether an argument can be the value of the option before it. -/
def isValue (arg : String) : Bool := arg ≠ "" && formOf arg = .word

/-- **An option, with the arguments after it.** -/
inductive Item where
  | settings (path : String) (rest : List String)
  | json (rest : List String)
  | help
  | version
  | mark (rest : List String)
  | word (text : String) (rest : List String)
  | unknown
  deriving DecidableEq, Repr

/-- The item that a long option begins. -/
def longItem (name : String) (value : Option String) (rest : List String) : Item :=
  match name, value, rest with
  | "config", some path, rest => if path = "" then .unknown else .settings path rest
  | "config", none, path :: rest => if isValue path then .settings path rest else .unknown
  | "json", none, rest => .json rest
  | "help", none, _ => .help
  | "version", none, _ => .version
  | _, _, _ => .unknown

/-- The item that an argument begins. -/
def itemOf (arg : String) (rest : List String) : Item :=
  match formOf arg with
  | .mark => .mark rest
  | .long name value => longItem name value rest
  | .short ('h' :: _) => .help
  | .short ('V' :: _) => .version
  | .short _ => .unknown
  | .word => .word arg rest

/-- The help text about a command. -/
def topicOf : Command → Topic
  | .demo _ => .demo
  | .config => .config

/-- Reads the arguments after a command, each of which begins an item; `limit` bounds their
number.  `before` is the file named before the command, `after` the one named after it. -/
def readCommand (before after : Option String) : Nat → Command → List String → Option Request
  | _, command, [] => some (.run command (after <|> before))
  | 0, _, _ => none
  | limit + 1, command, arg :: rest =>
    match itemOf arg rest, command with
    | .settings path rest, _ =>
      if after.isSome then none else readCommand before (some path) limit command rest
    | .json rest, .demo false => readCommand before after limit (.demo true) rest
    | .help, _ => some (.help (topicOf command))
    | .mark [], _ => some (.run command (after <|> before))
    | _, _ => none

/-- Reads the arguments after `help`. -/
def readTopic : List String → Option Request
  | [] => some (.help .program)
  | ["demo"] => some (.help .demo)
  | ["config"] => some (.help .config)
  | ["help"] => some (.help .help)
  | _ => none

/-- Reads the arguments before a command and goes on with those after it. -/
def readProgram (before : Option String) : Nat → List String → Option Request
  | _, [] => none
  | 0, _ => none
  | limit + 1, arg :: rest =>
    match itemOf arg rest with
    | .settings path rest =>
      if before.isSome then none else readProgram (some path) limit rest
    | .help => some (.help .program)
    | .version => some .version
    | .word "demo" rest => readCommand before none limit (.demo false) rest
    | .word "config" rest => readCommand before none limit .config rest
    | .word "help" rest => readTopic rest
    | _ => none

/-- **What the arguments ask for.** -/
def Request.ofArguments? (args : List String) : Option Request :=
  readProgram none args.length args

/-- The file with settings that has to be read first. -/
def Request.settings? : Request → Option String
  | .run _ settings => settings
  | _ => none

end ProductModel.CommandLine
