import RecordQuery.App
import RecordQuery.CommandLine
import RecordQuery.EnvironmentFile
import RecordQuery.Schema.SchemaFile

/-! The program: what it answers to a command line, given the files and the
variables that it can look up. Looking up is all it does to the world. -/
namespace RecordQuery

open Json (Value)

/-! ## Endings -/

/-- How the program ends. -/
inductive Outcome where
  /-- With text that was asked for. -/
  | answer (text : String)
  /-- With a command line that cannot be followed. -/
  | usage (error : UsageError)
  /-- With a failure, and what caused it. -/
  | failure (chain : List String)
deriving DecidableEq, Repr

namespace Outcome

def exitCode : Outcome → UInt32
  | .answer _ => 0
  | .usage _ => 2
  | .failure _ => 1

/-- What is written to the output. -/
def output : Outcome → String
  | .answer text => text
  | _ => ""

/-- What is written for whoever has to mend the call. -/
def complaint : Outcome → String
  | .answer _ => ""
  | .usage error => s!"error: {error.message}\n\nFor more information, try '--help'.\n"
  | .failure chain => "\nError: " ++ ": ".intercalate chain ++ "\n\n"

end Outcome

/-! ## Help -/

def versionText : String :=
  "sift 0.1.0\n"

def helpText : String :=
  "Compile filter and order-by text into parameterized SQL

Usage: sift [OPTIONS] <COMMAND>

Commands:
  compile  Compile filter and order text for a record
  schema   Validate the schema file and list its records
  help     Print this message

Options:
  -c, --config <CONFIG>    Path to config file [env: SIFT_CONFIG]
  -s, --schema <SCHEMA>    Path to the record schema file (JSON) [env: SIFT_SCHEMA]
  -d, --dialect <DIALECT>  SQL dialect: sqlite, postgres or duckdb [env: SIFT_DIALECT]
      --lenient-order      Skip unknown or non-orderable order fields instead of failing
                           [env: SIFT_LENIENT_ORDER]
  -h, --help               Print help
  -V, --version            Print version

Options of compile:
  -r, --record <RECORD>        Record name as registered in the schema file
  -f, --filter <FILTER>        URL-encoded filter expression
  -o, --order <ORDER>          URL-encoded order expression
      --page <PAGE>            Page number (1-based)
      --page-size <PAGE_SIZE>  Page size
      --sql                    Print a full SELECT statement instead of the compiled parts
"

/-- Help and the version are answers; other errors are the caller's to mend. -/
def UsageError.outcome : UsageError → Outcome
  | .help => .answer helpText
  | .version => .answer versionText
  | e => .usage e

/-! ## Running -/

/-- Why a schema file gives no registry, and what caused it. -/
def SchemaTextError.chain : SchemaTextError → List String
  | .schema e => [e.message]
  | .json fault =>
    match fault.cause? with
    | some cause => ["Invalid schema definition: " ++ cause, cause]
    | none => ["Invalid schema definition"]

/-- The registry that a schema file declares. -/
def Registry.load {m : Type → Type} [Monad m] (look : FileLookup m) (path : String) :
    m (Except (List String) Registry) := do
  let context := s!"Failed to load schema file: {path}"
  match ← look path with
  | .error problem =>
    return .error
      [context, s!"Failed to read schema file {path}: {problem.message}", problem.message]
  | .ok text => return (Registry.ofText text).mapError fun e => context :: e.chain

/-- The answer to a command. -/
def Command.answer (app : App) : Command → Except String Value
  | .schema => .ok (App.describeRegistry app.registry)
  | .compile record filter order page pageSize sql =>
    let number := page.getD app.settings.defaultPage
    let size := pageSize.getD app.settings.defaultPageSize
    app.compile record ⟨⟨number, size⟩, filter, order⟩ sql

/-- Follows a command line. -/
def CommandLine.run {m : Type → Type} [Monad m] (look : FileLookup m) (call : CommandLine) :
    m Outcome := do
  match ← Configuration.load look call.options with
  | .error e => return .failure e.chain
  | .ok configuration =>
    match ← Registry.load look configuration.schema with
    | .error chain => return .failure chain
    | .ok registry =>
      let app : App := ⟨configuration.dialect, configuration.settings, registry⟩
      match call.command.answer app with
      | .error report => return .failure [report]
      | .ok value => return .answer (value.pretty ++ "\n")

/-- The file that sets variables which are not set yet. -/
def variableFile : String := ".env"

/-- The variables that stand in for options, as they are set. -/
def optionVariables {m : Type → Type} [Monad m] (look : FileLookup m)
    (valueOf? : String → m (Option String)) : m (List (String × String)) := do
  let assigned ←
    match ← look variableFile with
    | .error _ => pure []
    | .ok text => EnvironmentFile.apply valueOf? (EnvironmentFile.ofText text)
  let values ← (CliOption.shared.filterMap CliOption.variableName).mapM fun name => do
    return ((← valueOf? name) <|> EnvironmentFile.valueIn? assigned name).map fun value => (name, value)
  return values.filterMap id

/-- Runs the program. -/
def run {m : Type → Type} [Monad m] (look : FileLookup m)
    (valueOf? : String → m (Option String)) (arguments : List String) : m Outcome := do
  let environment ← optionVariables look valueOf?
  match CommandLine.read environment arguments with
  | .error e => return e.outcome
  | .ok call => call.run look

end RecordQuery
