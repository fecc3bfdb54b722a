/-! JSON values and how they are printed. Members keep their order; numbers keep
their digits. -/
namespace RecordQuery.Json

inductive Value where
  | null
  | bool (b : Bool)
  | number (digits : String)
  | string (s : String)
  | array (items : List Value)
  | object (members : List (String × Value))
deriving Repr

namespace Value

/-- A natural number. -/
def ofNat (n : Nat) : Value :=
  .number (toString n)

/-- An integer. -/
def ofInt (n : Int) : Value :=
  .number (toString n)

/-- The value, or null if there is none. -/
def orNull : Option Value → Value
  | some v => v
  | none => .null

/-- Strings, or null if there is none. -/
def ofString? (s : Option String) : Value :=
  orNull (s.map .string)

end Value

/-- A hexadecimal digit. -/
def hexDigit (n : Nat) : Char :=
  if n < 10 then Char.ofNat (48 + n) else Char.ofNat (87 + n)

/-- A character as it stands inside a JSON string. -/
def escapeChar (c : Char) : String :=
  if c = '"' then "\\\""
  else if c = '\\' then "\\\\"
  else if c = '\n' then "\\n"
  else if c = '\r' then "\\r"
  else if c = '\t' then "\\t"
  else if c.toNat = 8 then "\\b"
  else if c.toNat = 12 then "\\f"
  else if c.toNat < 32 then
    "\\u00" ++ String.ofList [hexDigit (c.toNat / 16), hexDigit (c.toNat % 16)]
  else String.singleton c

/-- A string in quotes. Characters outside ASCII are not escaped. -/
def quote (s : String) : String :=
  "\"" ++ String.join (s.toList.map escapeChar) ++ "\""

namespace Value

mutual

/-- The value without any blanks. -/
def compact : Value → String
  | .null => "null"
  | .bool b => if b then "true" else "false"
  | .number digits => digits
  | .string s => quote s
  | .array items => "[" ++ ",".intercalate (compactItems items) ++ "]"
  | .object members => "\x7b" ++ ",".intercalate (compactMembers members) ++ "\x7d"

def compactItems : List Value → List String
  | [] => []
  | v :: vs => v.compact :: compactItems vs

def compactMembers : List (String × Value) → List String
  | [] => []
  | (key, v) :: rest => (quote key ++ ":" ++ v.compact) :: compactMembers rest

end

/-- Lines between brackets, indented one step further than the brackets. -/
def block (opening closing margin : String) (lines : List String) : String :=
  if lines.isEmpty then opening ++ closing
  else
    opening ++ "\n" ++ ",\n".intercalate (lines.map fun line => margin ++ "  " ++ line) ++
      "\n" ++ margin ++ closing

mutual

/-- The value with one item or member on a line, below a margin. -/
def prettyAt (margin : String) : Value → String
  | .null => "null"
  | .bool b => if b then "true" else "false"
  | .number digits => digits
  | .string s => quote s
  | .array items => block "[" "]" margin (prettyItems (margin ++ "  ") items)
  | .object members => block "\x7b" "\x7d" margin (prettyMembers (margin ++ "  ") members)

def prettyItems (margin : String) : List Value → List String
  | [] => []
  | v :: vs => v.prettyAt margin :: prettyItems margin vs

def prettyMembers (margin : String) : List (String × Value) → List String
  | [] => []
  | (key, v) :: rest => (quote key ++ ": " ++ v.prettyAt margin) :: prettyMembers margin rest

end

/-- The value on several lines. -/
def pretty (v : Value) : String :=
  v.prettyAt ""

end Value

end RecordQuery.Json
