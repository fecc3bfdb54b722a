import RecordQuery.Json.Kept
import RecordQuery.SettingsText

/-! The configuration of the program: options of a call over a configuration file
over defaults. -/
namespace RecordQuery

open Json (Fault Layout Node Entry Value)

/-! ## The configuration file -/

/-- A configuration file. What it holds beyond the known entries is kept. -/
structure ConfigFile where
  schema : Option String := none
  dialect : Option Dialect := none
  settings : Option Settings := none
  extra : Value := .object []

namespace ConfigFile

/-- A configuration file with entries still missing. -/
structure Draft where
  schema : Option (Option String) := none
  dialect : Option (Option Dialect) := none
  settings : Option (Option Settings) := none
  /-- The members that are no entries, in their order. -/
  others : List (String × Node) := []

def entries : List (Entry Draft) := [
  ⟨"schema", (·.schema.isSome),
    fun d n => do return { d with schema := some (← n.readOptional Node.readString) }⟩,
  ⟨"dialect", (·.dialect.isSome), fun d n => do
    return { d with dialect := some (← n.readOptional (Node.readChoice Dialect.choices)) }⟩,
  ⟨"compiler", (·.settings.isSome),
    fun d n => do return { d with settings := some (← n.readOptional Settings.layout.read) }⟩]

/-- Takes up a member that is no entry. -/
def takeUp (d : Draft) (name : String) (n : Node) : Except Fault Draft :=
  if n.isReadable (Json.maxDepth - 1) then .ok { d with others := d.others ++ [(name, n)] }
  else .error .malformed

def finish (d : Draft) : Except Fault ConfigFile :=
  match Json.keptMembers? d.others with
  | some extra => .ok ⟨d.schema.join, d.dialect.join, d.settings.join, extra⟩
  | none => .error .malformed

def layout : Layout Draft ConfigFile :=
  ⟨entries, {}, takeUp, finish⟩

/-- The configuration that a text holds. -/
def ofText (text : String) : Except Fault ConfigFile :=
  Json.readText layout.readObject text

end ConfigFile

/-! ## Files -/

/-- Why a file cannot be read. -/
inductive FileProblem where
  | missing
  | notDirectory
  | isDirectory
  | nameTooLong
  /-- There is a NUL in the path. -/
  | pathHasNul
  | other (message : String)
deriving DecidableEq, Repr

/-- There is nothing at the path. -/
def FileProblem.isAbsence : FileProblem → Bool
  | .missing | .notDirectory | .nameTooLong | .pathHasNul => true
  | .isDirectory | .other _ => false

def FileProblem.message : FileProblem → String
  | .missing => "No such file or directory (os error 2)"
  | .notDirectory => "Not a directory (os error 20)"
  | .isDirectory => "Is a directory (os error 21)"
  | .nameTooLong => "File name too long (os error 36)"
  | .pathHasNul => "file name contained an unexpected NUL byte"
  | .other message => message

/-- What is found when the file at a path is opened: its text, or a problem. -/
abbrev FileLookup (m : Type → Type) := String → m (Except FileProblem String)

/-! ## The configuration of a call -/

/-- What the caller chose. -/
structure Options where
  config : Option String := none
  schema : Option String := none
  dialect : Option Dialect := none
  lenientOrder : Bool := false
deriving DecidableEq, Repr

/-- What the program works with. -/
structure Configuration where
  /-- The path of the schema file. -/
  schema : String
  dialect : Dialect
  settings : Settings
deriving DecidableEq, Repr

/-- Why there is no configuration. -/
inductive ConfigError where
  | fileMissing (path : String)
  | fileUnreadable (path : String) (problem : FileProblem)
  | fileMalformed (path : String) (fault : Fault)
  | noSchema
  | invalidSettings (error : SettingsError)
deriving DecidableEq, Repr

namespace ConfigError

def message : ConfigError → String
  | .fileMissing path => s!"Config file not found: {path}"
  | .fileUnreadable path _ => s!"Failed to read config file: {path}"
  | .fileMalformed path _ => s!"Failed to parse config file: {path}"
  | .noSchema =>
    "No schema file configured. Use --schema, SIFT_SCHEMA or \"schema\" in the config file"
  | .invalidSettings e => e.message

/-- What went wrong in JSON, where names are at fault. -/
def jsonCause? : ConfigError → Option String
  | .fileMalformed _ fault => fault.cause?
  | _ => none

/-- The message, and what it was caused by. -/
def chain (e : ConfigError) : List String :=
  match e with
  | .fileUnreadable _ problem => [e.message, problem.message]
  | .fileMalformed _ fault => e.message :: fault.cause?.toList
  | _ => [e.message]

end ConfigError

namespace Configuration

/-- The file that is read when the caller names none and it exists. -/
def localFile : String := "sift.json"

/-- The options over what a file says, over the defaults. -/
def merge (options : Options) (file : ConfigFile) : Except ConfigError Configuration :=
  match options.schema <|> file.schema with
  | none => .error .noSchema
  | some schema =>
    let settings := file.settings.getD {}
    let settings := if options.lenientOrder then { settings with strictOrder := false } else settings
    match settings.check with
    | .error e => .error (.invalidSettings e)
    | .ok settings => .ok ⟨schema, (options.dialect <|> file.dialect).getD .sqlite, settings⟩

/-- The configuration of a call. A file that the caller names has to exist. -/
def load {m : Type → Type} [Monad m] (look : FileLookup m) (options : Options) :
    m (Except ConfigError Configuration) := do
  let path := options.config.getD localFile
  match ← look path with
  | .error problem =>
    if !problem.isAbsence then return .error (.fileUnreadable path problem)
    else if options.config.isSome then return .error (.fileMissing path)
    else return merge options {}
  | .ok text =>
    match ConfigFile.ofText text with
    | .error fault => return .error (.fileMalformed path fault)
    | .ok file => return merge options file

end Configuration

end RecordQuery
