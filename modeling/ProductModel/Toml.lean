/-!
# TOML documents

A document is a list of statements: assignments, table headers and headers of array elements.
`Toml.ofStatements?` builds the table that they describe and refuses what the format forbids: a
key or a table that is defined twice, and a table that is extended where it is closed.

The values that a configuration can hold are truth values and texts.  Values of every other kind
are checked for their form and then forgotten.
-/

namespace ProductModel

/-- **An entry of a document.** -/
inductive Toml where
  | bool (b : Bool)
  | string (s : String)
  /-- a number, a date, an array or an inline table -/
  | other
  /-- a table: whether a header defined it, and whether a dotted key made it -/
  | table (explicit dotted : Bool) (entries : List (String × Toml))
  /-- an array of tables, one for each header -/
  | tables (elements : List (List (String × Toml)))
  deriving Repr, Inhabited

/-- **A statement of a document.** -/
inductive TomlStatement where
  | assign (path : List String) (key : String) (value : Toml)
  | header (path : List String) (key : String)
  | element (path : List String) (key : String)
  deriving Repr

namespace Toml

/-- The entries of a table. -/
abbrev Entries := List (String × Toml)

/-- The value of a key. -/
def get? (entries : Entries) (key : String) : Option Toml :=
  (entries.find? (·.1 == key)).map (·.2)

/-- Sets the value of a key, at its place if it has one. -/
def set (entries : Entries) (key : String) (value : Toml) : Entries :=
  if (get? entries key).isSome then
    entries.map fun e => if e.1 == key then (key, value) else e
  else entries ++ [(key, value)]

/-- Changes the last table of an array of tables. -/
def changeLast (elements : List Entries) (change : Entries → Option Entries) :
    Option (List Entries) :=
  match elements.getLast? with
  | some last => (change last).map (elements.dropLast ++ [·])
  | none => none

/-- **Assigns a key that may be dotted.**  The tables that the dots name must not have a header,
and the innermost one must have been made by a dotted key. -/
def assignDotted (dotted : Bool) (key : String) (value : Toml) :
    List String → Entries → Bool → Option Entries
  | [], entries, container =>
    if container != dotted || (get? entries key).isSome then none
    else some (entries ++ [(key, value)])
  | step :: steps, entries, _ =>
    match get? entries step with
    | none => do
      let inner ← assignDotted dotted key value steps [] true
      return set entries step (.table false true inner)
    | some (.table explicit made inner) =>
      if explicit then none
      else do
        let inner ← assignDotted dotted key value steps inner made
        return set entries step (.table explicit made inner)
    | some (.tables elements) => do
      let elements ← changeLast elements fun e => assignDotted dotted key value steps e false
      return set entries step (.tables elements)
    | some _ => none

/-- Follows a path of headers, making the tables that are not there yet, and changes the table at
its end. -/
def change (f : Entries → Option Entries) : List String → Entries → Option Entries
  | [], entries => f entries
  | step :: steps, entries =>
    match get? entries step with
    | none => do
      let inner ← change f steps []
      return set entries step (.table false false inner)
    | some (.table explicit dotted inner) => do
      let inner ← change f steps inner
      return set entries step (.table explicit dotted inner)
    | some (.tables elements) => do
      let elements ← changeLast elements (change f steps)
      return set entries step (.tables elements)
    | some _ => none

/-- Defines a table.  It may be there already because a header below it named it. -/
def openTable (key : String) (entries : Entries) : Option Entries :=
  match get? entries key with
  | none => some (set entries key (.table true false []))
  | some (.table false false inner) => some (set entries key (.table true false inner))
  | some _ => none

/-- Adds an element to an array of tables. -/
def openElement (key : String) (entries : Entries) : Option Entries :=
  match get? entries key with
  | none => some (set entries key (.tables [[]]))
  | some (.tables elements) => some (set entries key (.tables (elements ++ [[]])))
  | some _ => none

/-- Carries out statements, the assignments below the header that was met last. -/
def runStatements : List TomlStatement → List String → Entries → Option Entries
  | [], _, root => some root
  | .assign path key value :: rest, here, root => do
    let root ← change (fun e => assignDotted (!path.isEmpty) key value path e false) here root
    runStatements rest here root
  | .header path key :: rest, _, root => do
    let root ← change (openTable key) path root
    runStatements rest (path ++ [key]) root
  | .element path key :: rest, _, root => do
    let root ← change (openElement key) path root
    runStatements rest (path ++ [key]) root

/-- **The entries that statements describe.** -/
def ofStatements? (statements : List TomlStatement) : Option Entries :=
  runStatements statements [] []

end Toml

end ProductModel
