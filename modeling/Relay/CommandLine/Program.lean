import Relay.CommandLine.Arguments
import Relay.Config
import Relay.Graph.Order
import Relay.Graph.Validation

/-!
# What the program does

The outcome of the program as a function of its arguments, its environment and
the files that it can read.  No database and no network is at hand, so a command
that needs one ends with the failure to reach it.
-/

namespace Relay

namespace CommandLine

/-- What the program leaves behind. -/
structure Outcome where
  status : Nat
  /-- Written to the standard output. -/
  output : String
  /-- Written to the standard error output. -/
  errors : String
  deriving DecidableEq, Repr

namespace Outcome

/-- The program has done what it was told. -/
def success (output : String) : Outcome := ⟨0, output, ""⟩

/-- The program has failed. -/
def failure (message : String) : Outcome := ⟨1, "", "Error: " ++ message ++ "\n"⟩

end Outcome

/-- The surroundings of the program. -/
structure Surroundings where
  /-- The values of environment variables. -/
  environment : String → Option String
  /-- The texts of the readable files. -/
  files : String → Option String

/-- Load the configuration, from a file if one is named. -/
def loadConfig (files : String → Option String) : Option String → Except String Config
  | none => .ok .standard
  | some path =>
      match files path with
      | none => .error ("cannot read config file " ++ path)
      | some text =>
          match Config.ofText? text with
          | some config => .ok config
          | none => .error ("invalid config file " ++ path)

/-- Check the tasks in a text and show their order. -/
def validateText (text : String) : Outcome :=
  match (Reading.ofText text).decode Task.listDecoder with
  | .error _ => .failure "invalid JSON"
  | .ok tasks =>
      match Graph.validate tasks with
      | .error problem => ⟨1, "", "❌ Validation failed: " ++ problem.message ++ "\n"⟩
      | .ok () =>
          match Graph.order tasks with
          | .error problem => .failure problem.message
          | .ok order =>
              .success ("✅ Workflow is valid. Execution order: " ++
                Text.quotedList (order.map Task.name) ++ "\n")

/-- Serve with a configuration, which takes a database if one is configured and an
address in any case. -/
def serve (config : Config) : Outcome :=
  match config.database.url with
  | some _ => .failure "failed to connect to database"
  | none => .failure ("api server on " ++ config.bind ++ " failed")

/-- Carry out a command. -/
def execute (files : String → Option String) (config : Config) : Command → Outcome
  | .serve bind databaseUrl =>
      serve { config with
        bind := bind.getD config.bind
        database := { config.database with url := databaseUrl.or config.database.url } }
  | .migrate _ => .failure "failed to connect to database"
  | .validate path =>
      match files path with
      | some text => validateText text
      | none => .failure ("cannot read file " ++ path)

/-- What happens instead of a command. -/
def haltOutcome (environment : String → Option String) : Halt → Outcome
  | .help none => .success (helpPage environment)
  | .help (some verb) => .success (verb.helpPage environment)
  | .version => .success (programName ++ " " ++ version ++ "\n")
  | .nothing => ⟨2, "", helpPage environment⟩
  | .misuse problem =>
      ⟨2, "", "error: " ++ problem.message ++ "\n\nFor more information, try '--help'.\n"⟩

/-- Run the program. -/
def run (surroundings : Surroundings) (arguments : List String) : Outcome :=
  match parse surroundings.environment arguments with
  | .error halt => haltOutcome surroundings.environment halt
  | .ok invocation =>
      match loadConfig surroundings.files invocation.config with
      | .error message => .failure message
      | .ok config => execute surroundings.files config invocation.command

/-- The files that the program may read. -/
def filesOf (environment : String → Option String) (arguments : List String) : List String :=
  match parse environment arguments with
  | .error _ => []
  | .ok invocation =>
      invocation.config.toList ++
        (match invocation.command with
          | .validate path => [path]
          | .serve _ _ | .migrate _ => [])

end CommandLine

end Relay
