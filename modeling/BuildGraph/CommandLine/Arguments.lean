/-!
# Arguments

A command is called by name, followed by its switches, options with a value and positional arguments.
The value of an option follows an equals sign or is the next argument; a lone `--` makes all later
arguments positional. Nothing may be given twice.
-/

namespace BuildGraph.CommandLine

/-- What is asked for. -/
inductive Command where
  /-- Run the coverage pass and list the tasks it creates, or the projects. -/
  | coverage (json splitBuild : Bool)
  /-- Resolve a module. -/
  | resolve (name : String) (subTarget : Option String) (splitBuild : Bool)
  /-- Resolve the runnable server application. -/
  | serverRunner (splitBuild : Bool)
  /-- Resolve the published client. -/
  | client (splitBuild : Bool)
  /-- Resolve a cell of the version matrix, by a name or by its primary value. -/
  | matrix (name primary : Option String)
  /-- Check the files of the workspace. -/
  | check
deriving DecidableEq, Repr

/-- A call of the program. -/
inductive Call where
  | run (command : Command)
  | help
  | version
deriving DecidableEq, Repr

/-- The arguments that a command takes. -/
structure Signature where
  switches : List String := []
  options : List String := []
  /-- The greatest number of positional arguments. -/
  positionals : Nat := 0
deriving DecidableEq, Repr

/-- The arguments of a command. -/
structure Given where
  switches : List String := []
  options : List (String × String) := []
  /-- The positional arguments in order. -/
  positionals : List String := []
deriving DecidableEq, Repr

/-- Add a positional argument, if one more may be given. -/
def Given.addPositional (s : Signature) (g : Given) (arg : String) : Option Given :=
  if g.positionals.length < s.positionals then
    some { g with positionals := g.positionals ++ [arg] }
  else none

/-- Add a switch that has not been given. -/
def Given.addSwitch (g : Given) (name : String) : Option Given :=
  if name ∈ g.switches then none else some { g with switches := name :: g.switches }

/-- Add an option that has not been given. -/
def Given.addOption (g : Given) (name value : String) : Option Given :=
  if (g.options.lookup name).isSome then none
  else some { g with options := (name, value) :: g.options }

/-- What an argument looks like. -/
inductive Shape where
  /-- The lone `--`. -/
  | separator
  /-- A name after two dashes, perhaps with a value after an equals sign. -/
  | long (name : String) (value : Option String)
  /-- Letters after one dash. -/
  | short (letters : List Char)
  | plain
deriving DecidableEq, Repr

/-- What an argument looks like. -/
def shape (arg : String) : Shape :=
  match arg.toList with
  | ['-', '-'] => .separator
  | '-' :: '-' :: cs =>
    let name := cs.takeWhile (· ≠ '=')
    match cs.dropWhile (· ≠ '=') with
    | [] => .long (.ofList name) none
    | _ :: value => .long (.ofList name) (some (.ofList value))
  | '-' :: c :: cs => .short (c :: cs)
  | _ => .plain

/-- Read all arguments left as positional ones. -/
def readPositionals (s : Signature) : List String → Given → Option Given
  | [], g => some g
  | arg :: args, g => (g.addPositional s arg).bind (readPositionals s args)

/-- Read the arguments of a command; `none` inside stands for a call for help, which ends the
reading. -/
def readArguments (s : Signature) : List String → Given → Option (Option Given)
  | [], g => some (some g)
  | arg :: args, g =>
    match shape arg with
    | .separator => (readPositionals s args g).map some
    | .plain => (g.addPositional s arg).bind (readArguments s args)
    | .short letters => if letters.head? = some 'h' then some none else none
    | .long "help" none => some none
    | .long name none =>
      if name ∈ s.switches then (g.addSwitch name).bind (readArguments s args)
      else if name ∈ s.options then
        match args with
        | [] => none
        | value :: args =>
          if shape value = .plain then (g.addOption name value).bind (readArguments s args) else none
      else none
    | .long name (some value) =>
      if name ∈ s.options then (g.addOption name value).bind (readArguments s args) else none

/-- Whether the split-build switch was given. -/
def Given.splitBuild (g : Given) : Bool := g.switches.contains "split-build"

/-- The signature of a command, and what its arguments ask for. -/
def commandNamed? : String → Option (Signature × (Given → Option Command))
  | "coverage" => some (
      { switches := ["json", "split-build"] },
      fun g => some (.coverage (g.switches.contains "json") g.splitBuild))
  | "resolve" => some (
      { switches := ["split-build"], options := ["sub-target"], positionals := 1 },
      fun g => g.positionals.head?.map fun name =>
        .resolve name (g.options.lookup "sub-target") g.splitBuild)
  | "server-runner" => some (
      { switches := ["split-build"] },
      fun g => some (.serverRunner g.splitBuild))
  | "client" => some (
      { switches := ["split-build"] },
      fun g => some (.client g.splitBuild))
  | "matrix" => some (
      { options := ["primary"], positionals := 1 },
      fun g =>
        match g.positionals.head?, g.options.lookup "primary" with
        | some _, some _ => none
        | name, primary => some (.matrix name primary))
  | "check" => some ({}, fun _ => some .check)
  | _ => none

/-- Whether `help` takes an argument as a topic. -/
def isTopic (name : String) : Bool := name == "help" || (commandNamed? name).isSome

/-- What a list of arguments asks for, if it is a proper call. -/
def parse : List String → Option Call
  | [] => none
  | arg :: args =>
    match shape arg with
    | .separator => none
    | .long "help" none => some .help
    | .long "version" none => some .version
    | .long _ _ => none
    | .short ('h' :: _) => some .help
    | .short ('V' :: _) => some .version
    | .short _ => none
    | .plain =>
      if arg = "help" then
        match args with
        | [] => some .help
        | [topic] => if isTopic topic then some .help else none
        | _ => none
      else do
        let (signature, command) ← commandNamed? arg
        match ← readArguments signature args {} with
        | none => return .help
        | some given => return .run (← command given)

end BuildGraph.CommandLine
