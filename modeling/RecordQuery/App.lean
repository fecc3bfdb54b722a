import RecordQuery.RequestText

/-! What the program answers: a compiled request, or a description of the schema. -/
namespace RecordQuery

open Json (Value)

/-- A failure of compilation in words, with its code. -/
def QueryError.report (e : QueryError) : String :=
  s!"{e.message} [{e.code}]"

/-- A registry with the dialect and the settings that requests are compiled for. -/
structure App where
  dialect : Dialect
  settings : Settings
  registry : Registry

namespace App

/-- The parts of a query in the dialect. -/
def describeQuery (d : Dialect) (q : Query) : Value :=
  .object [
    ("dialect", .string d.name),
    ("condition", .orNull (q.condition.map fun c =>
      .object [("fragment", .string (c.render d 1)), ("values", .array (c.values.map Datum.toJson))])),
    ("order", .array (q.order.map fun k => .string (d.sortKey k))),
    ("page", .ofNat q.page.number.toNat),
    ("pageSize", .ofNat q.page.size.toNat)]

/-- A complete statement. -/
def describeStatement (d : Dialect) (s : Statement) : Value :=
  .object [
    ("dialect", .string d.name),
    ("sql", .string s.sql),
    ("params", .array (s.params.map Datum.toJson))]

/-- Compiles a request for records of the named type, to the parts of a query or
to a complete statement. The error is a report. -/
def compile (app : App) (name : String) (request : Request) (fullStatement : Bool) :
    Except String Value := do
  let q ← (request.compile app.registry app.settings name).mapError QueryError.report
  if fullStatement then
    match app.registry.resolve? name with
    | some record =>
      return describeStatement app.dialect (q.applyTo (Statement.ofRecord app.dialect record))
    | none => throw s!"Record not registered: {name}"
  else return describeQuery app.dialect q

/-- A field as clients may use it. -/
def describeField (f : Field) : Value :=
  .object [
    ("name", .string f.name),
    ("column", .string f.column),
    ("type", .string f.type.name),
    ("operators", .array (f.operators.members.map fun op => .string op.symbol)),
    ("orderable", .bool f.orderable)]

def describeRecord (r : RecordType) : Value :=
  .object [
    ("name", .string r.name),
    ("select", .string r.selectList),
    ("from", .string r.source),
    ("fields", .array (r.fields.map describeField))]

/-- All record types, sorted by name. -/
def describeRegistry (registry : Registry) : Value :=
  .object [("records", .array (registry.records.map describeRecord))]

end App

end RecordQuery
