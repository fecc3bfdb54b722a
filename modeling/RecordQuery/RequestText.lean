import RecordQuery.Json.Reading
import RecordQuery.Json.Value
import RecordQuery.Request

/-! Requests and queries in JSON. -/
namespace RecordQuery

open Json (Fault Layout Node Entry Value)

namespace Request

/-- A request with entries still missing. -/
structure Draft where
  page : Option UInt32 := none
  pageSize : Option UInt32 := none
  filter : Option (Option String) := none
  order : Option (Option String) := none

def entries : List (Entry Draft) := [
  ⟨"page", (·.page.isSome), fun d n => do return { d with page := some (← n.readUInt32) }⟩,
  ⟨"pageSize", (·.pageSize.isSome),
    fun d n => do return { d with pageSize := some (← n.readUInt32) }⟩,
  ⟨"filter", (·.filter.isSome),
    fun d n => do return { d with filter := some (← n.readOptional Node.readString) }⟩,
  ⟨"order", (·.order.isSome),
    fun d n => do return { d with order := some (← n.readOptional Node.readString) }⟩]

/-- A request in JSON; an entry that is left out has its default. -/
def layout : Layout Draft Request :=
  ⟨entries, {}, Layout.ignore, fun d =>
    .ok ⟨⟨d.page.getD 1, d.pageSize.getD 20⟩, d.filter.join, d.order.join⟩⟩

def toJson (r : Request) : Value :=
  .object [("page", .ofNat r.page.number.toNat), ("pageSize", .ofNat r.page.size.toNat),
    ("filter", .ofString? r.filter), ("order", .ofString? r.order)]

end Request

/-- A typed value: its type and its value. -/
def Datum.toJson (d : Datum) : Value :=
  let value : Value :=
    match d with
    | .string s => .string s
    | .integer n => .ofInt n.toInt
    | .decimal x => .string x.text
    | .timestamp t => .string t.text
    | .boolean b => .bool b
  .object [("type", .string d.type.name), ("value", value)]

namespace Query

def toJson (q : Query) : Value :=
  .object [
    ("condition", .orNull (q.condition.map fun c =>
      .object [("fragment", .string c.fragment), ("values", .array (c.values.map Datum.toJson))])),
    ("order", .array (q.order.map fun k =>
      .object [("column", .string k.column), ("direction", .string k.direction.sql)])),
    ("page", .ofNat q.page.number.toNat),
    ("pageSize", .ofNat q.page.size.toNat)]

end Query

end RecordQuery
