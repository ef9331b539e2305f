/-
Reading a command line.

Arguments are read from the left. A flag takes its value after an equals sign or from the next argument, and that value is
looked at only when the next flag or the end comes, so an argument that nobody expects is reported first. A command ends
the flags before it; what follows belongs to the command. Flags that are not given fall back to the environment.
-/
import MigrationOperator.CommandLine.Similarity
import MigrationOperator.CommandLine.Usage

namespace MigrationOperator.CommandLine

/-- the shape of an argument -/
inductive Shape where
  /-- two dashes alone: no flags follow -/
  | escape
  /-- two dashes and a name, perhaps with a value -/
  | long (name : String) (value : Option String)
  /-- a dash and letters -/
  | short (first : Char)
  | plain

def Shape.of (s : String) : Shape :=
  match s.toList with
  | ['-', '-'] => .escape
  | '-' :: '-' :: cs =>
    let name := String.ofList (cs.takeWhile (· ≠ '='))
    match cs.dropWhile (· ≠ '=') with
    | [] => .long name none
    | _ :: value => .long name (some (String.ofList value))
  | '-' :: c :: _ => .short c
  | _ => .plain

/-- what was read so far: settled values, and a flag whose value is not settled or still to come -/
structure Progress where
  given : Given := {}
  pending : Option (Flag × Option String) := none

namespace Progress

def give (p : Progress) (c : Command) (f : Flag) (value : String) : Except UsageError Progress :=
  match p.given.set f value with
  | .ok given => .ok { given }
  | .error fault => .error ⟨c, .value fault⟩

/-- settle the pending flag -/
def settle (p : Progress) (c : Command) : Except UsageError Progress :=
  match p.pending with
  | none => .ok p
  | some (f, none) => .error ⟨c, .valueMissing f⟩
  | some (f, some value) => p.give c f value

/-- a flag waits for its value -/
def waiting? (p : Progress) : Option Flag :=
  match p.pending with
  | some (f, none) => some f
  | _ => none

/-- the flags that were given a value, whether it is valid or not; one whose repetition is not settled is left out -/
def mentioned (p : Progress) : List Flag :=
  match p.pending with
  | some (f, some _) => if f ∈ p.given.flags then p.given.flags.erase f else p.given.flags ++ [f]
  | _ => p.given.flags

end Progress

/-- the error of an argument that is neither a flag nor expected -/
def surplus (c : Command) (argument : String) (escaped : Bool) : UsageError :=
  if escaped && (c.subcommand? argument).isSome then ⟨c, .unexpected argument .dropDashes []⟩
  else if c.subcommands.isEmpty then ⟨c, .unexpected argument .none []⟩
  else ⟨c, .unknownCommand argument (Similarity.candidates argument (c.subcommands.map (·.1)))⟩

/-- the error of two dashes and a name that is no flag -/
def unknownLong (c : Command) (p : Progress) (name : String) : UsageError :=
  let advice := match Similarity.best? name c.longNames with
    | some similar => .similar similar
    | none => .none
  ⟨c, .unexpected ("--" ++ name) advice p.mentioned⟩

/-- the command whose help is asked for by its names -/
def helpOf (c : Command) : List String → UsageError
  | [] => ⟨c, .helpWanted⟩
  | name :: names =>
    match c.subcommand? name with
    | some c => helpOf c names
    | none => ⟨c, .unknownCommand name []⟩

/-- the flags of a command, and the command and the arguments that follow them, if any -/
structure Scanned where
  progress : Progress
  next : Option (Command × List String) := none

/-- read the arguments of a command -/
def scan (c : Command) (p : Progress) : List String → Except UsageError Scanned
  | [] => .ok { progress := p }
  | a :: rest =>
    match if p.waiting?.isSome then none else c.subcommand? a with
    | some .help => .error (helpOf c rest)
    | some command => .ok { progress := p, next := some (command, rest) }
    | none =>
      match Shape.of a with
      | .escape =>
        match rest with
        | [] => .ok { progress := p }
        | b :: _ => .error (surplus c b true)
      | .long "help" value =>
        match value with
        | some value => .error ⟨c, .valueUnneeded value (!p.given.flags.isEmpty)⟩
        | none => do
          let _ ← p.settle c
          throw ⟨c, .helpWanted⟩
      | .long name value =>
        match c.flags.find? (·.name = name) with
        | none => .error (unknownLong c p name)
        | some f => do
          let p ← p.settle c
          match value with
          | some value => scan c (← p.give c f value) rest
          | none => scan c { p with pending := some (f, none) } rest
      | .short 'h' => do
        let _ ← p.settle c
        throw ⟨c, .helpWanted⟩
      | .short letter => .error ⟨c, .unexpected ("-" ++ String.singleton letter) .none []⟩
      | .plain =>
        match p.waiting? with
        | some f => scan c { p with pending := some (f, some a) } rest
        | none => .error (surplus c a false)

/-- settle what is pending and fall back to the environment -/
def configure (c : Command) (environment : String → Option String) (p : Progress) : Except UsageError Config := do
  let p ← p.settle c
  match p.given.complete environment Flag.all with
  | .ok given => return given.config
  | .error fault => throw ⟨c, .value fault⟩

/-- settings alone, without commands -/
def parseSettings (environment : String → Option String) (args : List String) : Except UsageError Config := do
  let s ← scan .settings {} args
  configure .settings environment s.progress

/-- what a command line asks for -/
inductive Invocation where
  | printDefinition
  | run (config : Config)

/-- a whole command line; the command behind the flags is read before the flags are settled -/
def parse (environment : String → Option String) (args : List String) : Except UsageError Invocation := do
  let s ← scan .operator {} args
  match s.next with
  | none => return .run (← configure .operator environment s.progress)
  | some (command, rest) =>
    let inner ← scan command {} rest
    let _ ← inner.progress.settle command
    let _ ← configure .operator environment s.progress
    return .printDefinition

end MigrationOperator.CommandLine
