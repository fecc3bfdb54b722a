import RecordQuery.Schema.RecordType

/-! The registry of record types. It is built once from all declarations and
never changed. Its record types are sorted by name, whatever the order in which
they were declared. -/
namespace RecordQuery

/-- The record types that requests can be about. -/
structure Registry where
  records : List RecordType
deriving DecidableEq, Repr

namespace Registry

def empty : Registry := ⟨[]⟩

/-- The first name that an earlier record type of the list has too. The names in
`taken` count as earlier. -/
def duplicate? (taken : List String) : List RecordType → Option String
  | [] => none
  | r :: rs => if taken.contains r.name then some r.name else duplicate? (r.name :: taken) rs

/-- The registry of these record types. -/
def ofRecords (records : List RecordType) : Except SchemaError Registry :=
  match duplicate? [] records with
  | some name => .error (.duplicateRecord name)
  | none => .ok ⟨records.mergeSort fun a b => !decide (b.name < a.name)⟩

/-- The registry of these declarations. All of them are resolved before their
names are compared. -/
def ofDeclarations (declarations : List RecordDeclaration) : Except SchemaError Registry := do
  ofRecords (← declarations.mapM RecordDeclaration.resolve)

/-- The record type with this name. -/
def resolve? (registry : Registry) (name : String) : Option RecordType :=
  registry.records.find? fun r => r.name == name

end Registry

end RecordQuery
