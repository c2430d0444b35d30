import Relay.CommandLine.Commands

/-!
# Reading the arguments

Arguments are read from left to right.  An option takes the next argument as its
value, or what follows an equals sign; after two dashes nothing is taken for an
option any more.  The first problem ends the reading.
-/

namespace Relay

namespace CommandLine

/-- What is wrong with the arguments. -/
inductive Misuse where
  | unknownCommand (name : String)
  | unexpectedArgument (argument : String)
  | missingValue (shown : String)
  | repeated (shown : String)
  | superfluousValue (value option : String)
  | missingArgument (shown : String)
  | missingCommand
  deriving DecidableEq, Repr

/-- The wording of a problem with the arguments. -/
def Misuse.message : Misuse → String
  | .unknownCommand name => "unrecognized subcommand '" ++ name ++ "'"
  | .unexpectedArgument argument => "unexpected argument '" ++ argument ++ "' found"
  | .missingValue shown => "a value is required for '" ++ shown ++ "' but none was supplied"
  | .repeated shown => "the argument '" ++ shown ++ "' cannot be used multiple times"
  | .superfluousValue value option =>
      "unexpected value '" ++ value ++ "' for '" ++ option ++ "' found; no more were expected"
  | .missingArgument shown =>
      "the following required arguments were not provided:\n  " ++ shown
  | .missingCommand =>
      "'" ++ programName ++ "' requires a subcommand but one was not provided"

/-- Why arguments are not carried out. -/
inductive Halt where
  /-- Help for the program or for one of its commands is asked for. -/
  | help (page : Option Verb)
  | version
  /-- There are no arguments. -/
  | nothing
  | misuse (problem : Misuse)
  deriving DecidableEq, Repr

/-- What the program is told to do. -/
inductive Command where
  | serve (bind databaseUrl : Option String)
  | migrate (databaseUrl : String)
  | validate (path : String)
  deriving DecidableEq, Repr

/-- A command and the configuration file that goes with it. -/
structure Invocation where
  config : Option String
  command : Command
  deriving DecidableEq, Repr

/-- What was read at one level, of the program or of a command. -/
structure Progress where
  /-- The last option, with its value once that is there. -/
  pending : Option (Choice × Option String)
  values : List (String × String)
  operand : Option String
  /-- Whether options are no longer looked for. -/
  verbatim : Bool

namespace Progress

/-- Before the first argument. -/
def start : Progress := { pending := none, values := [], operand := none, verbatim := false }

/-- Whether an option waits for its value. -/
def isWaiting (progress : Progress) : Bool :=
  match progress.pending with
  | some (_, none) => true
  | some (_, some _) | none => false

/-- Settle the last option. -/
def settle (progress : Progress) : Except Halt Progress :=
  match progress.pending with
  | none => .ok progress
  | some (choice, none) => .error (.misuse (.missingValue choice.shown))
  | some (choice, some value) =>
      if (progress.values.lookup choice.name).isSome then
        .error (.misuse (.repeated choice.shown))
      else if value.isEmpty && !choice.mayBeEmpty then
        .error (.misuse (.missingValue choice.shown))
      else
        .ok { progress with
          pending := none, values := progress.values ++ [(choice.name, value)] }

end Progress

/-- The options at a level. -/
def choicesAt : Option Verb → List Choice
  | some verb => verb.choices
  | none => [configChoice]

/-- Read an argument that begins with two dashes. -/
def readLong (level : Option Verb) (argument : String) (progress : Progress) :
    Except Halt Progress :=
  let chars := argument.toList.drop 2
  let name := String.ofList (chars.takeWhile (· != '='))
  let value : Option String := match chars.dropWhile (· != '=') with
    | _ :: value => some (.ofList value)
    | [] => none
  let halt (reason : Halt) : Except Halt Progress :=
    match value with
    | some value => .error (.misuse (.superfluousValue value ("--" ++ name)))
    | none => do
        let _ ← progress.settle
        .error reason
  if name = "help" then halt (.help level)
  else if name = "version" ∧ level = none then halt .version
  else
    match (choicesAt level).find? fun choice => choice.name == name with
    | none => .error (.misuse (.unexpectedArgument ("--" ++ name)))
    | some choice => do
        let progress := { (← progress.settle) with pending := some (choice, value) }
        if value.isSome then progress.settle else return progress

/-- Read an argument that begins with one dash. -/
def readShort (level : Option Verb) (letter : Char) (progress : Progress) :
    Except Halt Progress := do
  if letter = 'h' then
    let _ ← progress.settle
    .error (.help level)
  else if letter = 'V' ∧ level = none then
    let _ ← progress.settle
    .error .version
  else .error (.misuse (.unexpectedArgument (.ofList ['-', letter])))

/-- Read an argument that belongs to no option. -/
def readOperand (level : Option Verb) (argument : String) (progress : Progress) :
    Except Halt Progress :=
  match level with
  | none =>
      if progress.verbatim && (argument == "help" || (Verb.ofName? argument).isSome) then
        .error (.misuse (.unexpectedArgument argument))
      else .error (.misuse (.unknownCommand argument))
  | some verb =>
      if verb.operand?.isSome && progress.operand.isNone then
        progress.settle.map fun progress => { progress with operand := some argument }
      else .error (.misuse (.unexpectedArgument argument))

/-- Read an argument that selects no command. -/
def readArgument (level : Option Verb) (argument : String) (progress : Progress) :
    Except Halt Progress :=
  if progress.verbatim then readOperand level argument progress
  else
    match argument.toList with
    | ['-', '-'] => .ok { progress with verbatim := true }
    | '-' :: '-' :: _ => readLong level argument progress
    | '-' :: letter :: _ => readShort level letter progress
    | _ =>
        match progress.pending with
        | some (choice, none) => .ok { progress with pending := some (choice, some argument) }
        | some (_, some _) | none => readOperand level argument progress

/-- Read the arguments of a command. -/
def readCommand (verb : Verb) : List String → Progress → Except Halt Progress
  | [], progress => progress.settle
  | argument :: rest, progress => do readCommand verb rest (← readArgument (some verb) argument progress)

/-- The page that the words after `help` ask for. -/
def helpFor : List String → Halt
  | [] => .help none
  | name :: rest =>
      match Verb.ofName? name, rest with
      | some verb, [] => .help (some verb)
      | some _, next :: _ => .misuse (.unknownCommand next)
      | none, _ => .misuse (.unknownCommand name)

/-- Read the arguments of the program up to the command; returns the command and
the arguments after it. -/
def readProgram : List String → Progress → Except Halt (Progress × Verb × List String)
  | [], progress => do
      let progress ← progress.settle
      .error (if progress.values.isEmpty then .nothing else .misuse .missingCommand)
  | argument :: rest, progress =>
      if progress.verbatim || progress.isWaiting then do
        readProgram rest (← readArgument none argument progress)
      else
        match Verb.ofName? argument with
        | some verb => do return (← progress.settle, verb, rest)
        | none =>
            if argument = "help" then .error (helpFor rest)
            else do readProgram rest (← readArgument none argument progress)

/-- The value of an option, or of the variable that stands in for it. -/
def valueOf (environment : String → Option String) (progress : Progress) (choice : Choice) :
    Option String :=
  (progress.values.lookup choice.name).or (choice.fallback.bind environment)

/-- The command with its arguments. -/
def commandOf (environment : String → Option String) (verb : Verb) (progress : Progress) :
    Except Halt Command :=
  let database := databaseChoice ""
  match verb with
  | .serve =>
      .ok (.serve (valueOf environment progress bindChoice) (valueOf environment progress database))
  | .migrate =>
      match valueOf environment progress database with
      | some url => .ok (.migrate url)
      | none => .error (.misuse (.missingArgument database.shown))
  | .validate =>
      match progress.operand with
      | some path =>
          if path.isEmpty then .error (.misuse (.missingValue "<PATH>")) else .ok (.validate path)
      | none => .error (.misuse (.missingArgument "<PATH>"))

/-- Read the arguments of the program. -/
def parse (environment : String → Option String) (arguments : List String) :
    Except Halt Invocation := do
  let (outer, verb, rest) ← readProgram arguments .start
  let inner ← readCommand verb rest .start
  let command ← commandOf environment verb inner
  let config := (inner.values.lookup configChoice.name).or (valueOf environment outer configChoice)
  return { config, command }

end CommandLine

end Relay
