import RecordQuery.Configuration

/-! The command line. Some options may stand before the command or after it; the
one after it wins. An option that is not given takes its value from a variable of
the environment, if it has one. -/
namespace RecordQuery

open Text

/-! ## Numbers -/

/-- Why a text is no number of the asked range. -/
inductive NumberFault where
  | empty
  | invalidDigit
  | tooLarge
  | tooSmall
  | outOfRange (n : Int)
deriving DecidableEq, Repr

def NumberFault.message : NumberFault → String
  | .empty => "cannot parse integer from empty string"
  | .invalidDigit => "invalid digit found in string"
  | .tooLarge => "number too large to fit in target type"
  | .tooSmall => "number too small to fit in target type"
  | .outOfRange n => s!"{intText n} is not in 0..=4294967295"

/-- Reads digits after those that denote `n`, as long as the number does not exceed
`max`. -/
def readDigits (max : Nat) (overflow : NumberFault) (n : Nat) :
    List Char → Except NumberFault Nat
  | [] => .ok n
  | c :: cs =>
    if !c.isDigit then .error .invalidDigit
    else if n * 10 + digitValue c ≤ max then
      readDigits max overflow (n * 10 + digitValue c) cs
    else .error overflow

/-- An integer of 64 bits, with a sign or without. -/
def readInteger (cs : List Char) : Except NumberFault Int :=
  match cs with
  | [] => .error .empty
  | ['-'] => .error .invalidDigit
  | ['+'] => .error .invalidDigit
  | '-' :: digits => (readDigits 9223372036854775808 .tooSmall 0 digits).map fun n => -(n : Int)
  | '+' :: digits => (readDigits 9223372036854775807 .tooLarge 0 digits).map fun n => (n : Int)
  | digits => (readDigits 9223372036854775807 .tooLarge 0 digits).map fun n => (n : Int)

/-- A number of 32 bits. -/
def readUInt32 (cs : List Char) : Except NumberFault UInt32 := do
  let n ← readInteger cs
  if 0 ≤ n ∧ n ≤ 4294967295 then return UInt32.ofNat n.toNat else throw (.outOfRange n)

/-! ## Errors -/

/-- Why a command line is not followed. -/
inductive UsageError where
  | help
  | version
  /-- No argument at all. -/
  | helpNeeded
  | missingCommand
  | unknownCommand
  | missingOption
  | unknownArgument
  | missingValue
  | unexpectedValue
  | repeatedOption
  | invalidValue (message : String)
deriving DecidableEq, Repr

namespace UsageError

/-- What is shown to the caller of a command line that is not followed. -/
def message : UsageError → String
  | .help => "help was asked for"
  | .version => "the version was asked for"
  | .helpNeeded => "no command and no option is given"
  | .missingCommand => "a command is required"
  | .unknownCommand => "there is no such command"
  | .missingOption => "a required option is missing"
  | .unknownArgument => "an argument is not known here"
  | .missingValue => "an option needs a value"
  | .unexpectedValue => "an option takes no value"
  | .repeatedOption => "an option is given twice"
  | .invalidValue message => message

end UsageError

/-! ## Options -/

/-- What an option may be given. -/
inductive ValueKind where
  | flag
  | text
  | path
  | number
  | dialect
deriving DecidableEq, Repr

/-- An option of the command line. -/
structure CliOption where
  name : String
  short : Option Char := none
  kind : ValueKind
  /-- The variable that stands in for the option. -/
  variableName : Option String := none
deriving DecidableEq, Repr

/-- The lower case of a character, as far as it is an ASCII letter. The only
such character outside ASCII is the sign for kelvin. -/
def lowerAscii (c : Char) : Char :=
  if c = '\u212A' then 'k' else c.toLower

/-- The dialect that is named, in any case. -/
def readDialect (name : String) : Except UsageError Dialect :=
  match String.ofList (name.toList.map lowerAscii) with
  | "sqlite" => .ok .sqlite
  | "postgres" | "postgresql" => .ok .postgres
  | "duckdb" => .ok .duckdb
  | _ =>
    .error (.invalidValue s!"Invalid dialect '{name}'. Valid options: sqlite, postgres, duckdb")

/-- Refuses a value that the option cannot have. -/
def ValueKind.check (kind : ValueKind) (value : String) : Except UsageError Unit :=
  match kind with
  | .text => .ok ()
  | .flag => if value = "true" ∨ value = "false" then .ok () else .error .missingValue
  | .path => if value.isEmpty then .error .missingValue else .ok ()
  | .number =>
    match readUInt32 value.toList with
    | .ok _ => .ok ()
    | .error fault => .error (.invalidValue fault.message)
  | .dialect => (readDialect value).map fun _ => ()

namespace CliOption

def config : CliOption := ⟨"config", some 'c', .path, some "SIFT_CONFIG"⟩
def schema : CliOption := ⟨"schema", some 's', .path, some "SIFT_SCHEMA"⟩
def dialect : CliOption := ⟨"dialect", some 'd', .dialect, some "SIFT_DIALECT"⟩
def lenientOrder : CliOption := ⟨"lenient-order", none, .flag, some "SIFT_LENIENT_ORDER"⟩

/-- The options that may stand before a command and after it. -/
def shared : List CliOption := [config, schema, dialect, lenientOrder]

def record : CliOption := ⟨"record", some 'r', .text, none⟩
def filter : CliOption := ⟨"filter", some 'f', .text, none⟩
def order : CliOption := ⟨"order", some 'o', .text, none⟩
def page : CliOption := ⟨"page", none, .number, none⟩
def pageSize : CliOption := ⟨"page-size", none, .number, none⟩
def sql : CliOption := ⟨"sql", none, .flag, none⟩

end CliOption

/-- A command, or the program before a command is named. -/
inductive Level where
  | program
  | compile
  | schema
deriving DecidableEq, Repr

namespace Level

def options : Level → List CliOption
  | .program | .schema => CliOption.shared
  | .compile =>
    [.record, .filter, .order, .page, .pageSize, .sql] ++ CliOption.shared

/-- The option with this long name. -/
def option? (l : Level) (name : String) : Option CliOption :=
  l.options.find? fun o => o.name == name

/-- The option with this letter. -/
def shortOption? (l : Level) (letter : Char) : Option CliOption :=
  l.options.find? fun o => o.short == some letter

/-- The command with this name. -/
def ofName? (name : String) : Option Level :=
  match name with
  | "compile" => some .compile
  | "schema" => some .schema
  | _ => none

end Level

/-! ## Reading arguments -/

/-- The values that options were given. -/
abbrev Given := List (String × String)

namespace Given

def value? (g : Given) (o : CliOption) : Option String :=
  (g.find? fun entry => entry.1 == o.name).map Prod.snd

/-- Adds a value, which must be the first for the option and one it can have. -/
def add (g : Given) (o : CliOption) (value : String) : Except UsageError Given := do
  if (g.value? o).isSome then throw .repeatedOption
  o.kind.check value
  return g ++ [(o.name, value)]

/-- Adds the values of variables for options that are not given. -/
def addVariables (environment : List (String × String)) (options : List CliOption) (g : Given) :
    Except UsageError Given :=
  options.foldlM
    (fun g o =>
      match o.variableName with
      | none => .ok g
      | some name =>
        if (g.value? o).isSome then .ok g
        else
          match environment.find? fun v => v.1 == name with
          | none => .ok g
          | some (_, value) => g.add o value)
    g

end Given

/-- An option that has been read, and the value after it once that has been read
too. It counts when the next one comes. -/
structure Unsettled where
  option : CliOption
  value : Option String
deriving DecidableEq, Repr

/-- The arguments of one level that have been read. -/
structure Progress where
  given : Given
  unsettled : Option Unsettled
deriving DecidableEq, Repr

namespace Progress

def start : Progress := ⟨[], none⟩

/-- Lets the unsettled option count. -/
def settle (p : Progress) : Except UsageError Given :=
  match p.unsettled with
  | none => .ok p.given
  | some ⟨_, none⟩ => .error .missingValue
  | some ⟨option, some value⟩ => p.given.add option value

/-- The next argument is the value of an option, unless it is an option itself. -/
def awaitsValue (p : Progress) : Option CliOption :=
  match p.unsettled with
  | some ⟨option, none⟩ => some option
  | _ => none

/-- An option with its value attached, or a flag. -/
def take (p : Progress) (o : CliOption) (value : String) : Except UsageError Progress := do
  return ⟨← (← p.settle).add o value, none⟩

/-- An option whose value comes next. -/
def await (p : Progress) (o : CliOption) : Except UsageError Progress := do
  return ⟨← p.settle, some ⟨o, none⟩⟩

/-- Stops for an answer that is not the work of a command. -/
def stop (p : Progress) (answer : UsageError) : Except UsageError Progress := do
  let _ ← p.settle
  throw answer

/-- An argument `--name` or `--name=value`. -/
def takeLong (l : Level) (p : Progress) (name : String) (value : Option String) :
    Except UsageError Progress :=
  match l.option? name, value with
  | some o, none => if o.kind = .flag then p.take o "true" else p.await o
  | some o, some v => if o.kind = .flag then .error .unexpectedValue else p.take o v
  | none, _ =>
    if name = "help" then
      if value.isSome then .error .unexpectedValue else p.stop .help
    else if name = "version" ∧ l = .program then
      if value.isSome then .error .unexpectedValue else p.stop .version
    else .error .unknownArgument

/-- An argument `-x`, `-xvalue` or `-x=value`. -/
def takeShort (l : Level) (p : Progress) (letter : Char) (rest : List Char) :
    Except UsageError Progress :=
  match l.shortOption? letter with
  | some o =>
    match rest with
    | [] => p.await o
    | '=' :: value => p.take o (String.ofList value)
    | value => p.take o (String.ofList value)
  | none =>
    if letter = 'h' then p.stop .help
    else if letter = 'V' ∧ l = .program then p.stop .version
    else .error .unknownArgument

end Progress

/-- What an argument looks like. -/
inductive ArgumentForm where
  | separator
  | long (name : String) (value : Option String)
  | short (letter : Char) (rest : List Char)
  | plain
deriving DecidableEq, Repr

/-- The form of an argument. A single `-` is a plain one. -/
def argumentForm (argument : String) : ArgumentForm :=
  match argument.toList with
  | ['-', '-'] => .separator
  | '-' :: '-' :: cs =>
    let name := String.ofList (cs.takeWhile (· != '='))
    match cs.dropWhile (· != '=') with
    | _ :: value => .long name (some (String.ofList value))
    | [] => .long name none
  | '-' :: c :: cs => .short c cs
  | _ => .plain

/-- What follows the options of a level: a command and its arguments, or nothing. -/
structure LevelResult where
  progress : Progress
  command : Option (String × List String)
deriving DecidableEq, Repr

/-- A plain argument that no option waits for. Only before a command can it be
the name of one. -/
def strayArgument (l : Level) (afterSeparator : Bool) (argument : String) : UsageError :=
  match l with
  | .program =>
    if afterSeparator ∧ ((Level.ofName? argument).isSome ∨ argument = "help") then .unknownArgument
    else .unknownCommand
  | _ => .unknownArgument

/-- Reads the arguments of a level, up to a command. -/
def readLevel (l : Level) (p : Progress) : List String → Except UsageError LevelResult
  | [] => .ok ⟨p, none⟩
  | argument :: rest =>
    if l = .program ∧ p.awaitsValue.isNone ∧
        ((Level.ofName? argument).isSome ∨ argument = "help") then
      .ok ⟨p, some (argument, rest)⟩
    else
      match argumentForm argument with
      | .separator =>
        match rest with
        | [] => .ok ⟨p, none⟩
        | next :: _ => .error (strayArgument l true next)
      | .long name value => do readLevel l (← p.takeLong l name value) rest
      | .short letter cs => do readLevel l (← p.takeShort l letter cs) rest
      | .plain =>
        match p.unsettled with
        | some ⟨option, none⟩ => readLevel l { p with unsettled := some ⟨option, some argument⟩ } rest
        | _ => .error (strayArgument l false argument)

/-! ## Commands -/

/-- What the program is asked to do. -/
inductive Command where
  | compile (record : String) (filter order : Option String) (page pageSize : Option UInt32)
      (sql : Bool)
  | schema
deriving DecidableEq, Repr

/-- A command line that can be followed. -/
structure CommandLine where
  options : Options
  command : Command
deriving DecidableEq, Repr

/-- A number that has been checked. -/
def numberOf? (value : Option String) : Option UInt32 :=
  value.bind fun v => (readUInt32 v.toList).toOption

/-- The command with the values that its options were given. -/
def Command.ofGiven (l : Level) (g : Given) : Except UsageError Command :=
  match l with
  | .compile =>
    match g.value? .record with
    | none => .error .missingOption
    | some record =>
      .ok (.compile record (g.value? .filter) (g.value? .order) (numberOf? (g.value? .page))
        (numberOf? (g.value? .pageSize)) (g.value? .sql == some "true"))
  | _ => .ok .schema

/-- The answer to the command `help` with these arguments. -/
def helpAnswer : List String → UsageError
  | [] => .help
  | [name] => if (Level.ofName? name).isSome ∨ name = "help" then .help else .unknownCommand
  | _ => .unknownCommand

/-- The value of a shared option: given after the command, before it, or by a
variable. -/
def sharedValue? (environment : List (String × String)) (inner outer : Given) (o : CliOption) :
    Option String :=
  inner.value? o <|> outer.value? o <|>
    o.variableName.bind fun name => (environment.find? fun v => v.1 == name).map Prod.snd

/-- The command line that arguments make up, with the variables of the environment. -/
def CommandLine.read (environment : List (String × String)) (arguments : List String) :
    Except UsageError CommandLine := do
  let program ← readLevel .program .start arguments
  match program.command with
  | none =>
    let given ← program.progress.settle
    let given ← given.addVariables environment CliOption.shared
    throw (if given.isEmpty then .helpNeeded else .missingCommand)
  | some (name, rest) =>
    match Level.ofName? name with
    | none => throw (helpAnswer rest)
    | some level =>
      let inner ← (← readLevel level .start rest).progress.settle
      let _ ← inner.addVariables environment level.options
      let command ← Command.ofGiven level inner
      let outer ← program.progress.settle
      let _ ← outer.addVariables environment CliOption.shared
      let value? := sharedValue? environment inner outer
      return {
        options := {
          config := value? .config
          schema := value? .schema
          dialect := (value? .dialect).bind fun d => (readDialect d).toOption
          lenientOrder := value? .lenientOrder == some "true" }
        command := command }

end RecordQuery
