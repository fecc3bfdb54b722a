import RecordQuery.Schema.Field
import RecordQuery.Schema.SchemaError
import RecordQuery.Text.Blank

/-! Record types. A declaration leaves out what has a default; resolving it fills
the defaults in and checks every part, so that what a client may name and the
SQL it turns into are fixed from then on. -/
namespace RecordQuery

open Text

/-- A record type as it is declared. The qualifier is put before the names of the
fields that declare no column. -/
structure RecordDeclaration where
  name : String
  select : Option String := none
  tables : Option String := none
  qualifier : Option String := none
  fields : List FieldDeclaration := []
deriving DecidableEq, Repr

/-- A record type: the query it is read with, and the fields a client may name. -/
structure RecordType where
  name : String
  select : Option String
  tables : Option String
  /-- In the order of their declaration. -/
  fields : List Field
deriving DecidableEq, Repr

namespace RecordType

/-- What the query selects; everything, unless declared otherwise. -/
def selectList (r : RecordType) : String :=
  r.select.getD "*"

/-- What the query reads from; the table of the record's name, unless declared
otherwise. -/
def source (r : RecordType) : String :=
  r.tables.getD r.name

/-- The field with this name. -/
def field? (r : RecordType) (name : String) : Option Field :=
  r.fields.find? fun f => f.name == name

end RecordType

/-! ## Declared SQL -/

/-- `a` directly before `b` somewhere in the text. -/
def hasPair (a b : Char) : List Char → Bool
  | c :: d :: rest => (c == a && d == b) || hasPair a b (d :: rest)
  | _ => false

/-- SQL that may become part of a statement: not blank, and without what could
end the statement, open a comment or a string, or pass for a placeholder. -/
def isSafeSql (cs : List Char) : Bool :=
  !cs.all isBlank && !cs.contains '?' && !cs.contains '\'' && !cs.contains ';' &&
    !hasPair '-' '-' cs && !hasPair '/' '*' cs

/-- Refuses SQL that is not safe. -/
def checkSql (record : String) (place : SqlPlace) (sql : String) : Except SchemaError Unit :=
  if isSafeSql sql.toList then .ok () else .error (.unsafeSql record place sql)

/-- Refuses SQL that is given and not safe. -/
def checkSql? (record : String) (place : SqlPlace) : Option String → Except SchemaError Unit
  | none => .ok ()
  | some sql => checkSql record place sql

/-! ## Resolving declarations -/

namespace FieldDeclaration

/-- The SQL that the field stands for. -/
def resolvedColumn (d : FieldDeclaration) (qualifier : Option String) : String :=
  match d.column, qualifier with
  | some column, _ => trim column
  | none, some qualifier => trim qualifier ++ "." ++ d.name
  | none, none => d.name

/-- The operators that the field allows. -/
def resolvedOperators (d : FieldDeclaration) (record : String) : Except SchemaError OperatorSet :=
  match d.operators with
  | none => .ok (.allFor d.type)
  | some ops =>
    match ops.find? fun op => !op.appliesTo d.type with
    | some op => .error (.operatorNotApplicable record d.name op d.type)
    | none => if ops.isEmpty then .error (.noOperators record d.name) else .ok (.ofList ops)

/-- The field that is declared. The names in `taken` are those of the fields
declared before it. -/
def resolve (d : FieldDeclaration) (record : String) (qualifier : Option String)
    (taken : List String) : Except SchemaError Field := do
  if !isFieldName d.name.toList then
    throw (.invalidFieldName record d.name)
  if taken.contains d.name then
    throw (.duplicateField record d.name)
  checkSql record (.column d.name) (d.resolvedColumn qualifier)
  let operators ← d.resolvedOperators record
  return ⟨d.name, d.resolvedColumn qualifier, d.type, operators, d.orderable⟩

end FieldDeclaration

namespace RecordDeclaration

/-- The declared fields, in order. -/
def resolveFields (record : String) (qualifier : Option String) (taken : List String) :
    List FieldDeclaration → Except SchemaError (List Field)
  | [] => .ok []
  | d :: ds => do
    let field ← d.resolve record qualifier taken
    let fields ← resolveFields record qualifier (d.name :: taken) ds
    return field :: fields

/-- The record type that is declared, or the first fault of the declaration. -/
def resolve (d : RecordDeclaration) : Except SchemaError RecordType := do
  let name := trim d.name
  if name.isEmpty then
    throw (.invalidRecordName d.name)
  checkSql? name .select d.select
  checkSql? name .tables d.tables
  if d.tables.isNone then
    checkSql name .tables name
  let fields ← resolveFields name d.qualifier [] d.fields
  return ⟨name, d.select, d.tables, fields⟩

end RecordDeclaration

end RecordQuery
