import RecordQuery.Filter.Parser
import RecordQuery.Order
import RecordQuery.Schema.Registry
import RecordQuery.Settings
import RecordQuery.Sql.BoundQuery
import RecordQuery.Sql.Statement

/-! Requests for records, and the queries that they compile to. -/
namespace RecordQuery

open Text

/-- A request as a client sends it. The texts are still form-encoded. -/
structure Request where
  page : Page := ⟨1, 20⟩
  filter : Option String := none
  order : Option String := none
deriving DecidableEq, Repr

/-- A request that has been checked: what a query needs, in SQL. -/
structure Query where
  /-- None if the request has no filter. -/
  condition : Option Condition
  /-- Empty if the request has no order. -/
  order : List SortKey
  page : Page
deriving DecidableEq, Repr

/-- The condition of a filter text on the records of a type. -/
def compileFilter (record : RecordType) (limits : Limits) (text : String) :
    Except QueryError Condition := do
  let e ← parse limits text
  return .ofExpr (← e.resolve record)

namespace Request

/-- Refuses a text that is longer than its limit. -/
def checkLength (limit : Limit) (max : Nat) (raw : Option String) : Except QueryError Unit :=
  match raw with
  | none => .ok ()
  | some text =>
    if max < byteLength text.toList then .error (.limitExceeded limit max) else .ok ()

/-- The decoded text of a parameter, if it has one. -/
def decode (raw : Option String) : Except QueryError (Option String) :=
  (FormEncoding.decodeParameter raw).mapError .malformedInput

/-- The first fault of a page that cannot be asked for. -/
def checkPage (maxSize : UInt32) (p : Page) : Except QueryError Unit :=
  if p.number = 0 then .error (.invalidPage p.number .pageTooSmall)
  else if p.size = 0 then .error (.invalidPage p.size .sizeTooSmall)
  else if maxSize < p.size then .error (.invalidPage p.size (.sizeTooLarge maxSize))
  else .ok ()

/-- The condition that a filter parameter states. -/
def compileFilter (record : RecordType) (limits : Limits) (raw : Option String) :
    Except QueryError (Option Condition) := do
  checkLength .filterLength limits.filterLength raw
  match ← decode raw with
  | none => return none
  | some text => return some (← RecordQuery.compileFilter record limits text)

/-- The sort keys that an order parameter states. -/
def compileOrder (record : RecordType) (settings : Settings) (raw : Option String) :
    Except QueryError (List SortKey) := do
  checkLength .orderLength settings.limits.orderLength raw
  match ← decode raw with
  | none => return []
  | some text => Order.compile record settings.limits settings.strictOrder text

/-- The query that a request for records of the named type asks for. The filter
is looked at before the order, and the page last. -/
def compile (registry : Registry) (settings : Settings) (request : Request) (name : String) :
    Except QueryError Query :=
  match registry.resolve? name with
  | none => .error (.unknownRecord name)
  | some record => do
    let condition ← compileFilter record settings.limits request.filter
    let order ← compileOrder record settings request.order
    checkPage settings.limits.pageSize request.page
    return ⟨condition, order, request.page⟩

end Request

/-- Something that the parts of a query can be applied to. -/
class QueryTarget (τ : Type) where
  addCondition : τ → Condition → τ
  addOrder : τ → List SortKey → τ
  addPage : τ → Page → τ

instance : QueryTarget Statement where
  addCondition := Statement.addCondition
  addOrder := Statement.setOrder
  addPage := Statement.setPage

instance : QueryTarget BoundQuery where
  addCondition := BoundQuery.addCondition
  addOrder := BoundQuery.addOrder
  addPage := BoundQuery.addPage

namespace Query

/-- Applies the parts that the query has. -/
def applyTo {τ : Type} [QueryTarget τ] (q : Query) (target : τ) : τ :=
  let target := match q.condition with
    | some c => QueryTarget.addCondition target c
    | none => target
  let target := if q.order.isEmpty then target else QueryTarget.addOrder target q.order
  QueryTarget.addPage target q.page

end Query

end RecordQuery
