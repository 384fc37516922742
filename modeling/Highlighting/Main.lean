import Highlighting.Command

/-!
# Running the command-line tool

The tool on real files: the output goes to standard output, a failure to standard error.
-/

namespace Highlighting

namespace Command

/-- The text of a file, if it can be read. -/
def readText (path : String) : IO (Option String) := do
  try
    return some (← IO.FS.readFile path)
  catch _ =>
    return none

end Command

end Highlighting

open Highlighting

/-- Runs the tool. -/
def main (words : List String) : IO UInt32 := do
  match ← Command.run Command.readText words with
  | .ok output =>
    IO.print output.toText
    return 0
  | .error failure =>
    IO.eprintln failure.message
    return failure.code.toUInt32
