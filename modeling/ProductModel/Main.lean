import ProductModel.CommandLine

/-!
# The program

Reads the file with settings if one is named, and prints the reply.
-/

open ProductModel

/-- The text of a file, or the reason why it cannot be read. -/
def readSettings (path : String) : IO (Except String String) := do
  match ← (IO.FS.readFile path).toBaseIO with
  | .ok text => return .ok text
  | .error e => return .error e.toString

/-- **The program.** -/
def main (args : List String) : IO UInt32 := do
  let content ← match CommandLine.settingsOf args with
    | some path => readSettings path
    | none => pure (.ok "")
  let reply := CommandLine.answer args content
  IO.print reply.output
  IO.eprint reply.complaint
  return reply.status.toUInt32
