import RecordQuery.Json.Document
import RecordQuery.Json.Number
import RecordQuery.Json.Value

/-! JSON values that are kept as they are. An object that begins with a certain key is
not kept itself: under the key stands JSON text in a string, and what that text denotes
is kept in place of the object. -/
namespace RecordQuery.Json

/-- How deep containers may be nested in a text that is kept. -/
def maxDepth : Nat := 127

/-- The key of an object that stands for JSON text. -/
def textKey : String := "$serde_json::private::RawValue"

/-! ## What may be kept -/

mutual

/-- The value is whole, its strings and numbers have values, and its containers are
nested at most `depth` deep. -/
def Node.isReadable (depth : Nat) : Node → Bool
  | .broken => false
  | .null | .bool _ => true
  | .number digits => (Number.read? digits).isSome
  | .string s => s.isSome
  | .array items => depth != 0 && items.isReadable (depth - 1)
  | .object members => depth != 0 && members.isReadable (depth - 1)

def Items.isReadable (depth : Nat) : Items → Bool
  | .closed => true
  | .broken => false
  | .cons head tail => head.isReadable depth && tail.isReadable depth

def Members.isReadable (depth : Nat) : Members → Bool
  | .closed => true
  | .broken => false
  | .cons key value tail => key.isSome && value.isReadable depth && tail.isReadable depth

end

/-! ## What is kept -/

/-- The members with a value put in; a name that is there already keeps its place. -/
def putMember (members : List (String × Value)) (key : String) (v : Value) :
    List (String × Value) :=
  if members.any fun m => m.1 == key then
    members.map fun m => if m.1 == key then (key, v) else m
  else members ++ [(key, v)]

/-- The first key of an object. -/
def Members.firstKey? : Members → Option String
  | .cons key _ _ => key
  | _ => none

/-- The string that is the only member of an object. -/
def Members.onlyString? : Members → Option String
  | .cons _ (.string s) .closed => s
  | _ => none

mutual

/-- The value that is kept, where `read?` reads texts in strings. -/
def Node.keptWith? (read? : String → Option Value) : Node → Option Value
  | .broken => none
  | .null => some .null
  | .bool b => some (.bool b)
  | .number digits => (Number.read? digits).map fun n => .number n.text
  | .string s => s.map .string
  | .array items => (items.keptWith? read?).map .array
  | .object members =>
    if members.firstKey? = some textKey then members.onlyString?.bind read?
    else (members.keptWith? read? []).map .object

def Items.keptWith? (read? : String → Option Value) : Items → Option (List Value)
  | .closed => some []
  | .broken => none
  | .cons head tail => do
    let v ← head.keptWith? read?
    let vs ← tail.keptWith? read?
    return v :: vs

def Members.keptWith? (read? : String → Option Value) (before : List (String × Value)) :
    Members → Option (List (String × Value))
  | .closed => some before
  | .broken => none
  | .cons key value tail => do
    let key ← key
    let v ← value.keptWith? read?
    tail.keptWith? read? (putMember before key v)

end

/-- The value of a text in which texts are nested less than `fuel` deep. -/
def keptText? : Nat → String → Option Value
  | 0, _ => none
  | fuel + 1, text =>
    let document := Document.ofText text
    if document.atEnd && document.root.isReadable maxDepth then
      document.root.keptWith? (keptText? fuel)
    else none

/-- The value of a text. Each text is longer than the texts in it, so that their
nesting is less deep than the text is long. -/
def readKept? (text : String) : Option Value :=
  keptText? text.length text

/-- The members with others put in, as they are kept. -/
def putMembers? (before : List (String × Value)) :
    List (String × Node) → Option (List (String × Value))
  | [] => some before
  | (key, value) :: rest => do
    let v ← value.keptWith? readKept?
    putMembers? (putMember before key v) rest

/-- The value that is kept for some of the members of an object. If the first of them
stands for a text, the others are passed over. -/
def keptMembers? (members : List (String × Node)) : Option Value :=
  match members with
  | (key, value) :: _ =>
    if key = textKey then
      match value with
      | .string s => s.bind readKept?
      | _ => none
    else (putMembers? [] members).map .object
  | [] => some (.object [])

end RecordQuery.Json
