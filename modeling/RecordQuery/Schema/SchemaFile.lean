import RecordQuery.Json.Reading
import RecordQuery.Schema.Registry

/-! The JSON form of a schema: an object whose `records` hold a `name`, `select`,
`tables`, `alias` and `fields`, where each field has a `name`, `column`, `type`,
`operators` and `orderable`. Only names and types are required. A name that is
not listed here is refused. -/
namespace RecordQuery

open Json (Fault Layout Node Entry)

/-- Why a schema text gives no registry. -/
inductive SchemaTextError where
  | json (fault : Fault)
  | schema (error : SchemaError)
deriving DecidableEq, Repr

namespace FieldDeclaration

/-- The types by name. -/
def types : List (String × FieldType) :=
  FieldType.all.map fun t => (t.name, t)

/-- The operators by symbol and by name. -/
def operatorNames : List (String × Operator) :=
  Operator.all.flatMap fun op => [(op.symbol, op), (op.name, op)]

/-- A declaration with entries still missing. -/
structure Draft where
  name : Option String := none
  column : Option (Option String) := none
  type : Option FieldType := none
  operators : Option (Option (List Operator)) := none
  orderable : Option Bool := none

def entries : List (Entry Draft) := [
  ⟨"name", (·.name.isSome), fun d n => do return { d with name := some (← n.readString) }⟩,
  ⟨"column", (·.column.isSome),
    fun d n => do return { d with column := some (← n.readOptional Node.readString) }⟩,
  ⟨"type", (·.type.isSome), fun d n => do return { d with type := some (← n.readChoice types) }⟩,
  ⟨"operators", (·.operators.isSome), fun d n => do
    let ops ← n.readOptional (Node.readList (Node.readChoice operatorNames))
    return { d with operators := some ops }⟩,
  ⟨"orderable", (·.orderable.isSome),
    fun d n => do return { d with orderable := some (← n.readBool) }⟩]

def finish (d : Draft) : Except Fault FieldDeclaration := do
  let name ← Json.require "name" d.name
  let type ← Json.require "type" d.type
  return ⟨name, d.column.join, type, d.operators.join, d.orderable.getD false⟩

def layout : Layout Draft FieldDeclaration :=
  ⟨entries, {}, Layout.refuse entries, finish⟩

end FieldDeclaration

namespace RecordDeclaration

/-- A declaration with entries still missing. -/
structure Draft where
  name : Option String := none
  select : Option (Option String) := none
  tables : Option (Option String) := none
  qualifier : Option (Option String) := none
  fields : Option (List FieldDeclaration) := none

def entries : List (Entry Draft) := [
  ⟨"name", (·.name.isSome), fun d n => do return { d with name := some (← n.readString) }⟩,
  ⟨"select", (·.select.isSome),
    fun d n => do return { d with select := some (← n.readOptional Node.readString) }⟩,
  ⟨"tables", (·.tables.isSome),
    fun d n => do return { d with tables := some (← n.readOptional Node.readString) }⟩,
  ⟨"alias", (·.qualifier.isSome),
    fun d n => do return { d with qualifier := some (← n.readOptional Node.readString) }⟩,
  ⟨"fields", (·.fields.isSome), fun d n => do
    let fields ← n.readList FieldDeclaration.layout.read
    return { d with fields := some fields }⟩]

def finish (d : Draft) : Except Fault RecordDeclaration := do
  let name ← Json.require "name" d.name
  return ⟨name, d.select.join, d.tables.join, d.qualifier.join, d.fields.getD []⟩

def layout : Layout Draft RecordDeclaration :=
  ⟨entries, {}, Layout.refuse entries, finish⟩

end RecordDeclaration

namespace Registry

/-- The declarations of a schema file, once they have been read. -/
abbrev Draft := Option (List RecordDeclaration)

def entries : List (Entry Draft) := [
  ⟨"records", Option.isSome, fun _ n => do
    return some (← n.readList RecordDeclaration.layout.read)⟩]

def layout : Layout Draft (List RecordDeclaration) :=
  ⟨entries, none, Layout.refuse entries, Json.require "records"⟩

/-- The registry that a JSON tree declares. -/
def ofNode (n : Node) : Except SchemaTextError Registry :=
  match layout.read n with
  | .error fault => .error (.json fault)
  | .ok declarations => (ofDeclarations declarations).mapError .schema

/-- The registry that a schema text declares. -/
def ofText (text : String) : Except SchemaTextError Registry :=
  match Json.readText layout.read text with
  | .error fault => .error (.json fault)
  | .ok declarations => (ofDeclarations declarations).mapError .schema

end Registry

end RecordQuery
