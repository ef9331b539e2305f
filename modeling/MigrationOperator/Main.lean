/-
The command line of the operator.
-/
import MigrationOperator.CommandLine.Run

namespace MigrationOperator.CommandLine

/-- the environment variables that a command line depends on -/
def readVariables : IO (List (String × String)) := do
  let found ← variableNames.mapM fun name => do
    return (← IO.getEnv name).map (name, ·)
  return found.filterMap id

end MigrationOperator.CommandLine

open MigrationOperator.CommandLine in
/-- print the output of the command line and exit with its code -/
def main (args : List String) : IO UInt32 := do
  let environment ← readVariables
  let o := output (fun name => (environment.find? (·.1 = name)).map (·.2)) args
  IO.print o.stdout
  IO.eprint o.stderr
  return o.exit
