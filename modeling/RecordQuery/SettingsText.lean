import RecordQuery.Json.Reading
import RecordQuery.Json.Value
import RecordQuery.Settings
import RecordQuery.Sql.Dialect

/-! Settings in JSON. Every entry may be left out and then has its default; entries
that are not known are passed over. -/
namespace RecordQuery

open Json (Fault Layout Node Entry Value)

/-- The dialects by name. -/
def Dialect.choices : List (String × Dialect) :=
  Dialect.all.map fun d => (d.name, d)

namespace Limits

/-- Limits with entries still missing. -/
structure Draft where
  filterLength : Option Nat := none
  orderLength : Option Nat := none
  predicates : Option Nat := none
  depth : Option Nat := none
  listValues : Option Nat := none
  orderFields : Option Nat := none
  pageSize : Option UInt32 := none

def entries : List (Entry Draft) := [
  ⟨"max_filter_length", (·.filterLength.isSome),
    fun d n => do return { d with filterLength := some (← n.readUInt64) }⟩,
  ⟨"max_order_length", (·.orderLength.isSome),
    fun d n => do return { d with orderLength := some (← n.readUInt64) }⟩,
  ⟨"max_predicates", (·.predicates.isSome),
    fun d n => do return { d with predicates := some (← n.readUInt64) }⟩,
  ⟨"max_depth", (·.depth.isSome),
    fun d n => do return { d with depth := some (← n.readUInt64) }⟩,
  ⟨"max_in_values", (·.listValues.isSome),
    fun d n => do return { d with listValues := some (← n.readUInt64) }⟩,
  ⟨"max_order_fields", (·.orderFields.isSome),
    fun d n => do return { d with orderFields := some (← n.readUInt64) }⟩,
  ⟨"max_page_size", (·.pageSize.isSome),
    fun d n => do return { d with pageSize := some (← n.readUInt32) }⟩]

/-- The limits of a draft, with the defaults for what is missing. -/
def ofDraft (d : Draft) : Limits :=
  let default : Limits := {}
  { filterLength := d.filterLength.getD default.filterLength
    orderLength := d.orderLength.getD default.orderLength
    predicates := d.predicates.getD default.predicates
    depth := d.depth.getD default.depth
    listValues := d.listValues.getD default.listValues
    orderFields := d.orderFields.getD default.orderFields
    pageSize := d.pageSize.getD default.pageSize }

def layout : Layout Draft Limits :=
  ⟨entries, {}, Layout.ignore, fun d => .ok (ofDraft d)⟩

def toJson (l : Limits) : Value :=
  .object [
    ("max_filter_length", .ofNat l.filterLength),
    ("max_order_length", .ofNat l.orderLength),
    ("max_predicates", .ofNat l.predicates),
    ("max_depth", .ofNat l.depth),
    ("max_in_values", .ofNat l.listValues),
    ("max_order_fields", .ofNat l.orderFields),
    ("max_page_size", .ofNat l.pageSize.toNat)]

end Limits

namespace Settings

/-- Settings with entries still missing. -/
structure Draft where
  limits : Option Limits := none
  strictOrder : Option Bool := none
  defaultPage : Option UInt32 := none
  defaultPageSize : Option UInt32 := none

def entries : List (Entry Draft) := [
  ⟨"limits", (·.limits.isSome),
    fun d n => do return { d with limits := some (← Limits.layout.read n) }⟩,
  ⟨"strict_order", (·.strictOrder.isSome),
    fun d n => do return { d with strictOrder := some (← n.readBool) }⟩,
  ⟨"default_page", (·.defaultPage.isSome),
    fun d n => do return { d with defaultPage := some (← n.readUInt32) }⟩,
  ⟨"default_page_size", (·.defaultPageSize.isSome),
    fun d n => do return { d with defaultPageSize := some (← n.readUInt32) }⟩]

/-- The settings of a draft, with the defaults for what is missing. -/
def ofDraft (d : Draft) : Settings :=
  let default : Settings := {}
  { limits := d.limits.getD default.limits
    strictOrder := d.strictOrder.getD default.strictOrder
    defaultPage := d.defaultPage.getD default.defaultPage
    defaultPageSize := d.defaultPageSize.getD default.defaultPageSize }

def layout : Layout Draft Settings :=
  ⟨entries, {}, Layout.ignore, fun d => .ok (ofDraft d)⟩

def toJson (s : Settings) : Value :=
  .object [
    ("limits", s.limits.toJson),
    ("strict_order", .bool s.strictOrder),
    ("default_page", .ofNat s.defaultPage.toNat),
    ("default_page_size", .ofNat s.defaultPageSize.toNat)]

end Settings

end RecordQuery
