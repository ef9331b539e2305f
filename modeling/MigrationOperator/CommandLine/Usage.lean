/-
Commands, their help, and the errors of a command line that cannot be run.

Their texts are styled. What comes from outside is part of a text as it is, so where no terminal interprets the text, a
sequence that it leaves open takes in what follows, up to the next change of face.
-/
import MigrationOperator.CommandLine.Flag
import MigrationOperator.Text.Styled

namespace MigrationOperator.CommandLine

/-- what a command line can name -/
inductive Command where
  /-- the settings by themselves -/
  | settings
  | operator
  /-- print the custom resource definition -/
  | definition
  | help
deriving DecidableEq

namespace Command

def program : String := "syndesis-operator"

/-- the commands that may follow this one -/
def subcommands : Command → List (String × Command)
  | .operator => [("crd", .definition), ("help", .help)]
  | .settings | .definition | .help => []

def subcommand? (c : Command) (name : String) : Option Command := (c.subcommands.find? (·.1 = name)).map (·.2)

def flags : Command → List Flag
  | .settings | .operator => Flag.all
  | .definition | .help => []

/-- the command answers to `--help` -/
def hasHelpFlag : Command → Bool
  | .help => false
  | .settings | .operator | .definition => true

/-- the names that may follow two dashes -/
def longNames (c : Command) : List String :=
  c.flags.map (·.name) ++ (if c.hasHelpFlag then ["help"] else [])

def about : Command → String
  | .settings => "Runtime settings, taken from command-line flags with environment fallbacks"
  | .operator => "Migrates and adopts Syndesis installations on Kubernetes"
  | .definition => "Print the Syndesis CRD YAML (both versions) to stdout"
  | .help => "Print this message or the help of the given subcommand(s)"

/-- the words that call the command -/
def call : Command → String
  | .settings | .operator => program
  | .definition => program ++ " crd"
  | .help => program ++ " help"

/-- what may follow the words that call the command -/
def parameters : Command → String
  | .settings => " [OPTIONS]"
  | .operator => " [OPTIONS] [COMMAND]"
  | .definition => ""
  | .help => " [COMMAND]..."

/-- how the command is called -/
def usage (c : Command) : Styled := Styled.text .literal c.call ++ c.parameters

end Command

/-- a flag with what stands for its value, as it is typed -/
def Flag.usage (f : Flag) : Styled := Styled.text .literal ("--" ++ f.name) ++ (" " ++ f.placeholder)

namespace Command

/-! ## Help -/

private def flagHelp : Flag → String
  | .namespaceName => "Namespace holding the Syndesis installation"
  | .legacyConfigSecret => "Secret holding the environment-style settings of a pre-CRD installation"
  | .metricsPort => "Port of the metrics and health endpoints"

private def flagDefault : Flag → String
  | .namespaceName => ""
  | .legacyConfigSecret => " [default: " ++ defaultSecretName ++ "]"
  | .metricsPort => " [default: " ++ toString defaultPort ++ "]"

/-- the purpose of a flag, its variable and its default; further lines of the variable are indented -/
def flagDetails (environment : String → Option String) (f : Flag) : String :=
  let value := (environment f.environmentName).getD ""
  let indented := value.toList.map fun c => if c = '\n' then "\n          " else String.singleton c
  flagHelp f ++ " [env: " ++ f.environmentName ++ "=" ++ String.join indented ++ "]" ++ flagDefault f

/-- a flag, with its details on the next line -/
def flagText (environment : String → Option String) (f : Flag) : Styled :=
  "      " ++ f.usage ++ ("\n          " ++ flagDetails environment f ++ "\n")

/-- the flags; where there is but the one for help, its purpose stands beside it -/
def optionText (environment : String → Option String) (c : Command) : Styled :=
  Styled.text .heading "Options:" ++ "\n" ++ Styled.join (c.flags.map (flagText environment)) ++
    "  " ++ Styled.text .literal "-h" ++ ", " ++ Styled.text .literal "--help" ++
    (if c.flags.isEmpty then "  " else "\n          ") ++ "Print help\n"

/-- the commands, each with its purpose beside it -/
def commandText : Styled :=
  Styled.text .heading "Commands:" ++ "\n" ++
    "  " ++ Styled.text .literal "crd" ++ ("   " ++ about .definition ++ "\n") ++
    "  " ++ Styled.text .literal "help" ++ ("  " ++ about .help ++ "\n")

/-- the help of a command; it shows the environment -/
def helpText (environment : String → Option String) (c : Command) : Styled :=
  (c.about ++ "\n\n") ++ Styled.text .heading "Usage:" ++ " " ++ c.usage ++ "\n\n" ++
    match c with
    | .help => Styled.text .heading "Arguments:" ++ "\n  [COMMAND]...  Print help for the subcommand(s)\n"
    | .operator => commandText ++ "\n" ++ optionText environment c
    | .settings | .definition => optionText environment c

end Command

/-! ## Errors -/

/-- what may help with an argument that is not expected -/
inductive Advice where
  | none
  /-- a flag is called much like it -/
  | similar (name : String)
  /-- it is a command, but stands behind two dashes -/
  | dropDashes

inductive UsageFault where
  /-- help was asked for -/
  | helpWanted
  | valueMissing (f : Flag)
  | value (fault : ValueFault)
  /-- a value for the flag for help, which takes none; whether a flag was settled before -/
  | valueUnneeded (value : String) (afterFlags : Bool)
  /-- an argument that is not understood, and the flags that a call with it would repeat -/
  | unexpected (argument : String) (advice : Advice) (given : List Flag)
  | unknownCommand (name : String) (similar : List String)

/-- a fault and the command it was met in -/
structure UsageError where
  command : Command
  fault : UsageFault

namespace UsageError

/-- a text in one face, in single quotes -/
def quoted (face : Face) (s : String) : Styled := "'" ++ Styled.text face s ++ "'"

/-- what is wrong, behind the word for it -/
def cause : UsageFault → Styled
  | .helpWanted => Styled.empty
  | .valueMissing f => "a value is required for " ++ quoted .invalid f.display ++ " but none was supplied"
  | .value (.repeated f) => "the argument " ++ quoted .invalid f.display ++ " cannot be used multiple times"
  | .value (.invalid f value fault) =>
    "invalid value " ++ quoted .invalid value ++ " for " ++ quoted .literal f.display ++ (": " ++ fault.message)
  | .valueUnneeded value _ =>
    "unexpected value " ++ quoted .invalid value ++ " for " ++ quoted .literal "--help" ++
      " found; no more were expected"
  | .unexpected argument _ _ => "unexpected argument " ++ quoted .invalid argument ++ " found"
  | .unknownCommand name _ => "unrecognized subcommand " ++ quoted .invalid name

/-- what may have been meant -/
def tip? : UsageFault → Option Styled
  | .unexpected _ (.similar name) _ => some ("a similar argument exists: " ++ quoted .valid ("--" ++ name))
  | .unexpected argument .dropDashes _ =>
    some ("subcommand " ++ quoted .valid argument ++ " exists; to use it, remove the " ++ quoted .invalid "--" ++
      " before it")
  | .unknownCommand _ [] => none
  | .unknownCommand _ [name] => some ("a similar subcommand exists: " ++ quoted .valid name)
  | .unknownCommand _ names =>
    some ("some similar subcommands exist: " ++ Styled.intercalate ", " (names.map (quoted .valid)))
  | _ => none

/-- a call of the command with some flags and the one of a name -/
def callWith (e : UsageError) (given : List Flag) (name : Option String) : Styled :=
  let last := match name.map fun n => (n, Flag.ofName? n) with
    | some (_, some f) => if f ∈ given then [] else [f.usage]
    | some (n, none) => [Styled.text .literal ("--" ++ n)]
    | none => []
  Styled.intercalate " " (Styled.text .literal e.command.call :: given.map (·.usage) ++ last)

/-- a call for help, with any of the flags when one was settled before -/
def helpCall (e : UsageError) (afterFlags : Bool) : Styled :=
  let anyFlag := "<" ++ String.intercalate "|" (e.command.flags.map (·.display)) ++ ">"
  e.callWith [] (some "help") ++ (if afterFlags then " " ++ anyFlag else "")

/-- how the command is called; errors about one value do not say it -/
def usage? (e : UsageError) : Option Styled :=
  match e.fault with
  | .unexpected _ (.similar name) given => some (e.callWith given (some name))
  | .unexpected _ _ (f :: given) => some (e.callWith (f :: given) none)
  | .valueUnneeded _ afterFlags => some (e.helpCall afterFlags)
  | .valueMissing _ | .value (.invalid _ _ _) => none
  | _ => some e.command.usage

/-- where to find help, if the command has any -/
def closing? (e : UsageError) : Option Styled :=
  if e.command.hasHelpFlag then some ("For more information, try " ++ quoted .literal "--help" ++ ".") else none

/-- the paragraphs of the text of an error -/
def paragraphs (e : UsageError) : List Styled :=
  (Styled.text .failure "error:" ++ " " ++ cause e.fault) ::
    ((tip? e.fault).map fun t => "  " ++ Styled.text .valid "tip:" ++ " " ++ t).toList ++
    (e.usage?.map fun u => Styled.text .heading "Usage:" ++ " " ++ u).toList ++ e.closing?.toList

/-- the whole text: the help that was asked for, or what is wrong -/
def text (environment : String → Option String) (e : UsageError) : Styled :=
  match e.fault with
  | .helpWanted => e.command.helpText environment
  | _ => Styled.intercalate "\n\n" e.paragraphs ++ "\n"

/-- the first line of the text; a carriage return before the line break belongs to the break -/
def firstLine (environment : String → Option String) (e : UsageError) : String :=
  let line := ((e.text environment).plain .ends).toList.takeWhile (· ≠ '\n')
  String.ofList (if line.getLast? = some '\r' then line.dropLast else line)

end UsageError

end MigrationOperator.CommandLine
