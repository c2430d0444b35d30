import Relay.CommandLine.Program

/-!
# The program

Reads what the program may need from its surroundings and writes the outcome.
-/

namespace Relay.CommandLine

/-- The text of a file, if it can be read. -/
def readText? (path : String) : IO (Option String) := do
  try
    return some (← IO.FS.readFile path)
  catch _ =>
    return none

end Relay.CommandLine

open Relay.CommandLine

/-- Run the program on the arguments of the process. -/
def main (arguments : List String) : IO UInt32 := do
  let names := ["FLOWCHAIN_CONFIG", "DATABASE_URL"]
  let values ← names.mapM fun name => IO.getEnv name
  let environment (name : String) : Option String := ((names.zip values).lookup name).join
  let paths := filesOf environment arguments
  let texts ← paths.mapM readText?
  let files (path : String) : Option String := ((paths.zip texts).lookup path).join
  let outcome := run ⟨environment, files⟩ arguments
  IO.print outcome.output
  IO.eprint outcome.errors
  return UInt32.ofNat outcome.status
