/-!
# Commands and their help pages

What the program can be told, and the pages that explain it.
-/

namespace Relay

namespace CommandLine

/-- The commands of the program. -/
inductive Verb where
  | serve
  | migrate
  | validate
  deriving DecidableEq, Repr

/-- An option that takes a value. -/
structure Choice where
  name : String
  /-- What the value is called. -/
  placeholder : String
  explanation : String
  /-- The environment variable that is used without the option. -/
  fallback : Option String
  mayBeEmpty : Bool
  deriving DecidableEq, Repr

/-- An option as it is shown. -/
def Choice.shown (choice : Choice) : String :=
  "--" ++ choice.name ++ " <" ++ choice.placeholder ++ ">"

/-- A value without option. -/
structure Operand where
  placeholder : String
  explanation : String
  deriving DecidableEq, Repr

/-- An operand as it is shown. -/
def Operand.shown (operand : Operand) : String := "<" ++ operand.placeholder ++ ">"

/-- The name of the program. -/
def programName : String := "flowchain"

/-- The version of the program. -/
def version : String := "0.1.0"

/-- The option that names a configuration file; it is understood everywhere. -/
def configChoice : Choice :=
  { name := "config", placeholder := "CONFIG", explanation := "TOML configuration file"
    fallback := some "FLOWCHAIN_CONFIG", mayBeEmpty := false }

/-- The option that names an address to serve at. -/
def bindChoice : Choice :=
  { name := "bind", placeholder := "BIND", explanation := "Overrides `bind` from the config file"
    fallback := none, mayBeEmpty := true }

/-- The option that names a database. -/
def databaseChoice (explanation : String) : Choice :=
  { name := "database-url", placeholder := "DATABASE_URL", explanation
    fallback := some "DATABASE_URL", mayBeEmpty := true }

namespace Verb

/-- All commands, in the order in which they are listed. -/
def all : List Verb := [.serve, .migrate, .validate]

/-- The word that selects a command. -/
def name : Verb → String
  | .serve => "serve"
  | .migrate => "migrate"
  | .validate => "validate"

/-- The command that a word selects. -/
def ofName? (name : String) : Option Verb := all.find? fun verb => verb.name == name

/-- What a command is for. -/
def about : Verb → String
  | .serve => "Start the queue workers and the REST API server"
  | .migrate => "Run pending database migrations"
  | .validate => "Validate a task-graph JSON file"

/-- The options of a command, in the order in which they are listed. -/
def choices : Verb → List Choice
  | .serve =>
      [bindChoice, configChoice,
        databaseChoice "Overrides `database.url`; without any URL records are kept in memory"]
  | .migrate => [configChoice, databaseChoice ""]
  | .validate => [configChoice]

/-- The operand of a command. -/
def operand? : Verb → Option Operand
  | .validate => some ⟨"PATH", "Path to a JSON array of task definitions"⟩
  | .serve | .migrate => none

/-- How a command is used, after the name of the program. -/
def usage : Verb → String
  | .serve => "serve [OPTIONS]"
  | .migrate => "migrate [OPTIONS] --database-url <DATABASE_URL>"
  | .validate => "validate [OPTIONS] <PATH>"

end Verb

/-- A line of a help page: what it explains, the width of that without a short
form, and the explanation. -/
structure HelpRow where
  shown : String
  width : Nat
  text : String

/-- The width of a help page. -/
def pageWidth : Nat := 100

/-- The rows of a section.  If the left column takes more than two fifths of the
page and an explanation does not fit beside it, explanations go below. -/
def layOut (indent : Nat) (rows : List HelpRow) : String :=
  let longest := (rows.map HelpRow.width).foldl max 0
  let taken := longest + 12
  let below := rows.any fun row =>
    taken ≤ pageWidth && 2 * pageWidth < 5 * taken && pageWidth - taken < row.text.length
  let line (row : HelpRow) : String :=
    let gap := if below then "\n" ++ "".pushn ' ' 10
      else "".pushn ' ' (indent + longest - row.shown.length + 2)
    "  " ++ row.shown ++ (if row.text.isEmpty then "" else gap ++ row.text) ++ "\n"
  String.join (rows.map line)

/-- The row of an option; `environment` gives the values of variables. -/
def Choice.row (environment : String → Option String) (choice : Choice) : HelpRow :=
  let hints := choice.fallback.toList.map fun name =>
    "[env: " ++ name ++ "=" ++ (environment name).getD "" ++ "]"
  let parts := (if choice.explanation.isEmpty then [] else [choice.explanation]) ++ hints
  ⟨"    " ++ choice.shown, choice.shown.length, String.intercalate " " parts⟩

/-- The row of the option that asks for help. -/
def helpRow : HelpRow := ⟨"-h, --help", 6, "Print help"⟩

/-- The row of the option that asks for the version. -/
def versionRow : HelpRow := ⟨"-V, --version", 9, "Print version"⟩

/-- The help page of a command. -/
def Verb.helpPage (environment : String → Option String) (verb : Verb) : String :=
  let operands := match verb.operand? with
    | some operand =>
        "Arguments:\n" ++
          layOut 0 [⟨operand.shown, operand.shown.length, operand.explanation⟩] ++ "\n"
    | none => ""
  verb.about ++ "\n\nUsage: " ++ programName ++ " " ++ verb.usage ++ "\n\n" ++ operands ++
    "Options:\n" ++ layOut 4 (verb.choices.map (Choice.row environment) ++ [helpRow])

/-- The help page of the program. -/
def helpPage (environment : String → Option String) : String :=
  let commands := Verb.all.map (fun verb => (verb.name, verb.about)) ++
    [("help", "Print this message or the help of the given subcommand(s)")]
  "Workflow compilation and ancestor-propagation engine\n\nUsage: " ++ programName ++
    " [OPTIONS] <COMMAND>\n\nCommands:\n" ++
    layOut 0 (commands.map fun (name, about) => ⟨name, name.length, about⟩) ++ "\nOptions:\n" ++
    layOut 4 [configChoice.row environment, helpRow, versionRow]

end CommandLine

end Relay
