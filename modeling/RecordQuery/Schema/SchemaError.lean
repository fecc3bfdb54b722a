import RecordQuery.Filter.Operator

/-! Why the declarations of a schema are refused. -/
namespace RecordQuery

/-- A place of a declaration that holds SQL. -/
inductive SqlPlace where
  | select
  | tables
  | column (field : String)
deriving DecidableEq, Repr

def SqlPlace.description : SqlPlace → String
  | .select => "select"
  | .tables => "tables"
  | .column field => s!"column of {field}"

inductive SchemaError where
  | invalidRecordName (name : String)
  | duplicateRecord (name : String)
  | duplicateField (record field : String)
  | invalidFieldName (record field : String)
  | unsafeSql (record : String) (place : SqlPlace) (sql : String)
  | operatorNotApplicable (record field : String) (op : Operator) (type : FieldType)
  | noOperators (record field : String)
deriving DecidableEq, Repr

def SchemaError.message : SchemaError → String
  | .invalidRecordName name => s!"Invalid record name: '{name}'"
  | .duplicateRecord name => s!"Record type {name} is registered more than once"
  | .duplicateField record field => s!"Record {record} declares field {field} more than once"
  | .invalidFieldName record field => s!"Record {record}: '{field}' is not a valid field name"
  | .unsafeSql record place sql => s!"Record {record}: unsafe SQL in {place.description}: {sql}"
  | .operatorNotApplicable record field op type =>
    s!"Record {record}: operator {op.symbol} cannot apply to {type.name} field {field}"
  | .noOperators record field => s!"Record {record}: field {field} allows no operators"

end RecordQuery
