/-
What a command line prints and how it exits.
-/
import MigrationOperator.CommandLine.Invocation
import MigrationOperator.Definition
import MigrationOperator.Yaml

namespace MigrationOperator.CommandLine

/-- the exit code and what is printed -/
structure Output where
  exit : UInt32
  stdout : String := ""
  stderr : String := ""

namespace Output

/-- a variable that is set and not empty -/
def isSet (environment : String → Option String) (name : String) : Bool := !((environment name).getD "").isEmpty

/-- the variable by which faces are refused -/
def refusal : String := "NO_COLOR"

/-- the variable by which faces are insisted on -/
def insistence : String := "CLICOLOR_FORCE"

/-- faces are shown only to those who insist on them and do not refuse them -/
def inColour (environment : String → Option String) : Bool :=
  !isSet environment refusal && isSet environment insistence

/-- help is printed to standard output, an error to standard error; a stream resumes a sequence behind a line break -/
def ofUsageError (environment : String → Option String) (e : UsageError) : Output :=
  let styled := e.text environment
  let text := if inColour environment then styled.coloured else styled.plain .resumes
  match e.fault with
  | .helpWanted => { exit := 0, stdout := text }
  | _ => { exit := 2, stderr := text }

def failure (message : String) : Output := { exit := 1, stderr := "Error: " ++ message ++ "\n" }

/-- an invocation as far as it goes without a cluster -/
def ofInvocation : Invocation → Output
  | .printDefinition => { exit := 0, stdout := Yaml.text Definition.merged ++ "\n" }
  | .run config =>
    match config.namespaceName with
    | none => failure "no namespace configured, set --namespace or WATCH_NAMESPACE"
    | some _ => failure "no cluster configured"

end Output

/-- the variables that a command line depends on -/
def variableNames : List String := Flag.all.map (·.environmentName) ++ [Output.refusal, Output.insistence]

/-- run a command line -/
def output (environment : String → Option String) (args : List String) : Output :=
  match parse environment args with
  | .ok invocation => .ofInvocation invocation
  | .error e => .ofUsageError environment e

end MigrationOperator.CommandLine
