import RecordQuery.Text.Alphanumeric
import RecordQuery.Text.Ascii
import RecordQuery.Text.Blank

/-! Files that set variables of the environment, one `NAME=value` after another.
A value may stand in quotes, hold escapes and refer to other variables. The first
line that cannot be read ends the file. -/
namespace RecordQuery.EnvironmentFile

open Text

/-! ## Lines -/

/-- Where a character stands in a line. An open quote carries the line over to the
next one. -/
inductive LineState where
  | outside
  | afterBlank
  | escaped
  | quoted (mark : Char)
  | quotedEscape (mark : Char)
  | comment
deriving DecidableEq, Repr

namespace LineState

/-- The state after a character. -/
def next (s : LineState) (c : Char) : LineState :=
  match s with
  | .outside =>
    if isBlank c && c != '\n' && c != '\r' then .afterBlank
    else if c = '\\' then .escaped
    else if c = '"' ∨ c = '\'' then .quoted c
    else .outside
  | .afterBlank =>
    if c = '#' then .comment
    else if c = '\\' then .escaped
    else if c = '"' ∨ c = '\'' then .quoted c
    else .outside
  | .escaped => .outside
  | .quoted mark =>
    if c = '\\' then .quotedEscape mark else if c = mark then .outside else .quoted mark
  | .quotedEscape mark => .quoted mark
  | .comment => if c = '\n' then .outside else .comment

end LineState

/-- The lines of a file, with the characters `before` of the first one in reverse
order. A line that the file ends in the middle of is left out. -/
def lines (s : LineState) (before : List Char) : List Char → List (List Char)
  | [] =>
    match s with
    | .outside | .comment => if before.isEmpty then [] else [before.reverse]
    | _ => []
  | c :: cs =>
    let isComment := s = .comment ∨ c = '#' ∧ before.all isBlank
    if isComment then
      if c = '\n' then before.reverse :: lines .outside [] cs else lines .comment before cs
    else
      match s.next c with
      | .comment => lines .comment before cs
      | .outside =>
        if c = '\n' then before.reverse :: lines .outside [] cs else lines .outside (c :: before) cs
      | s => lines s (c :: before) cs

/-! ## Assignments -/

/-- A part of a value. -/
inductive Piece where
  | text (c : Char)
  /-- The value of a variable. -/
  | variable (name : List Char)
deriving DecidableEq, Repr

/-- A variable and what it is set to. -/
structure Assignment where
  name : List Char
  value : List Piece
deriving DecidableEq, Repr

/-- How the characters of a value are taken. -/
inductive ValueState where
  | plain
  | escaped (inQuotes : Bool)
  /-- Between `'` and `'`, where every character stands for itself. -/
  | strong
  /-- Between `"` and `"`. -/
  | weak
  /-- In the name of a variable, after `$`. -/
  | name (reversed : List Char) (inQuotes : Bool)
  /-- In the name of a variable, after `$` and an opening brace. -/
  | bracedName (reversed : List Char) (inQuotes : Bool)
  /-- After the value, where only a comment may follow. -/
  | done
deriving DecidableEq, Repr

/-- Back outside of an escape or a name. -/
def ValueState.resume (inQuotes : Bool) : ValueState :=
  if inQuotes then .weak else .plain

/-- The value that a text holds. The name of a variable without braces ends at the first character that
is no letter and no digit, and that character stands for itself, unless it starts the next variable. -/
def readValue : ValueState → List Char → Option (List Piece)
  | .plain, [] | .done, [] | .escaped false, [] => some []
  | .name reversed false, [] => some [.variable reversed.reverse]
  | _, [] => none
  | .done, c :: cs =>
    if c = ' ' ∨ c = '\t' then readValue .done cs else if c = '#' then some [] else none
  | .escaped inQuotes, c :: cs =>
    if c = 'n' then (readValue (.resume inQuotes) cs).map (.text '\n' :: ·)
    else if ['\\', '\'', '"', '$', ' '].contains c then
      (readValue (.resume inQuotes) cs).map (.text c :: ·)
    else none
  | .strong, c :: cs =>
    if c = '\'' then readValue .plain cs else (readValue .strong cs).map (.text c :: ·)
  | .name reversed inQuotes, c :: cs =>
    if isAlphanumeric c then readValue (.name (c :: reversed) inQuotes) cs
    else if c = '\x7b' ∧ reversed.isEmpty then readValue (.bracedName [] inQuotes) cs
    else if c = '$' then (readValue (.name [] inQuotes) cs).map (.variable reversed.reverse :: ·)
    else
      (readValue (.resume inQuotes) cs).map fun rest =>
        .variable reversed.reverse :: .text c :: rest
  | .bracedName reversed inQuotes, c :: cs =>
    if c = '\x7d' then
      (readValue (.resume inQuotes) cs).map (.variable reversed.reverse :: ·)
    else readValue (.bracedName (c :: reversed) inQuotes) cs
  | .weak, c :: cs =>
    if c = '$' then readValue (.name [] true) cs
    else if c = '"' then readValue .plain cs
    else if c = '\\' then readValue (.escaped true) cs
    else (readValue .weak cs).map (.text c :: ·)
  | .plain, c :: cs =>
    if c = '$' then readValue (.name [] false) cs
    else if c = '\'' then readValue .strong cs
    else if c = '"' then readValue .weak cs
    else if c = '\\' then readValue (.escaped false) cs
    else if c = ' ' ∨ c = '\t' then readValue .done cs
    else (readValue .plain cs).map (.text c :: ·)

/-- A name at the start of a text, and the text after it. -/
def leadingName? (cs : List Char) : Option (List Char × List Char) :=
  match cs with
  | c :: _ =>
    if isNameStart c then some (cs.takeWhile isNamePart, cs.dropWhile isNamePart) else none
  | [] => none

/-- What follows an equals sign, without leading blanks. -/
def afterEquals? (cs : List Char) : Option (List Char) :=
  match cs.dropWhile isBlank with
  | '=' :: rest => some (rest.dropWhile isBlank)
  | _ => none

/-- The name and the value that are written on either side of an equals sign. -/
def sides? (line : List Char) : Option (List Char × List Char) := do
  let (name, rest) ← leadingName? line
  return (name, ← afterEquals? rest)

/-- The name and the value on a line, where the word `export` may come first. -/
def exportedSides? (line : List Char) : Option (List Char × List Char) :=
  sides? line <|> do
    let (word, rest) ← leadingName? line
    if word = "export".toList then sides? (rest.dropWhile isBlank) else none

/-- The assignment on a line that is neither blank nor a comment. -/
def readAssignment (line : List Char) : Option Assignment := do
  let (name, value) ← exportedSides? line
  if value.head? = some '#' then return ⟨name, []⟩
  else return ⟨name, ← readValue .plain value⟩

/-- The assignments on lines, up to the first line that is none. -/
def readLines : List (List Char) → List Assignment
  | [] => []
  | line :: rest =>
    let line := trimmed line
    if line.isEmpty ∨ line.head? = some '#' then readLines rest
    else
      match readAssignment line with
      | some a => a :: readLines rest
      | none => []

/-- The assignments of a file. A byte order mark at its start is passed over. -/
def ofText (text : String) : List Assignment :=
  match text.toList with
  | '\uFEFF' :: cs => readLines (lines .outside [] cs)
  | cs => readLines (lines .outside [] cs)

/-! ## Values -/

/-- The value of a variable in an environment, which is searched as texts `NAME=value`. So a
name with an equals sign in it may be found too. -/
def valueIn? (environment : List (String × String)) (name : String) : Option String :=
  if name.isEmpty || name.contains '\x00' then none
  else
    environment.findSome? fun (key, value) =>
      ((name ++ "=").toList.isPrefixOf? (key ++ "=" ++ value).toList).map String.ofList

/-- The variables that are set, with those of a file put in. A variable that is
set already keeps its value. -/
def apply {m : Type → Type} [Monad m] (valueOf? : String → m (Option String))
    (assignments : List Assignment) : m (List (String × String)) :=
  assignments.foldlM
    (fun set a => do
      let name := String.ofList a.name
      if (← valueOf? name).isSome ∨ (valueIn? set name).isSome then return set
      let parts ← a.value.mapM fun
        | .text c => pure (String.singleton c)
        | .variable name => do
          let name := String.ofList name
          return (← valueOf? name) <|> valueIn? set name |>.getD ""
      return set ++ [(name, String.join parts)])
    []

end RecordQuery.EnvironmentFile
