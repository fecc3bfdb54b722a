import RecordQuery.Limits

/-! Settings of the compiler. -/
namespace RecordQuery

structure Settings where
  limits : Limits := {}
  /-- A name that results cannot be sorted by is an error; otherwise it is passed over. -/
  strictOrder : Bool := true
  /-- The page of a request that names none. -/
  defaultPage : UInt32 := 1
  defaultPageSize : UInt32 := 20
deriving DecidableEq, Repr

/-- Why settings cannot be worked with. -/
inductive SettingsError where
  | zeroLimit (name : String)
  | zeroPage
  | pageSizeOutOfRange (max : UInt32)
deriving DecidableEq, Repr

def SettingsError.message : SettingsError → String
  | .zeroLimit name => s!"Configuration error: compiler.limits.{name} must be greater than 0"
  | .zeroPage => "Configuration error: compiler.default_page must be greater than 0"
  | .pageSizeOutOfRange max =>
    s!"Configuration error: compiler.default_page_size must be between 1 and {max.toNat}"

/-- The name of a limit in configuration files. -/
def Limit.settingName : Limit → String
  | .filterLength => "max_filter_length"
  | .orderLength => "max_order_length"
  | .predicates => "max_predicates"
  | .depth => "max_depth"
  | .listValues => "max_in_values"
  | .orderFields => "max_order_fields"

/-- All limits, in the order in which they are checked. -/
def Limit.all : List Limit :=
  [.filterLength, .orderLength, .predicates, .depth, .listValues, .orderFields]

namespace Settings

/-- The settings, if every limit lets something through and the default page can
be asked for. -/
def check (s : Settings) : Except SettingsError Settings :=
  match Limit.all.find? fun l => s.limits.max l == 0 with
  | some l => .error (.zeroLimit l.settingName)
  | none =>
    if s.defaultPage = 0 then .error .zeroPage
    else if s.defaultPageSize = 0 ∨ s.limits.pageSize < s.defaultPageSize then
      .error (.pageSizeOutOfRange s.limits.pageSize)
    else .ok s

end Settings

end RecordQuery
