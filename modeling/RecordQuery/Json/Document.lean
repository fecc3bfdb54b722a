import RecordQuery.Json.Token

/-! JSON text as a tree that also shows where the text stops being JSON. A reader
of the tree meets faults of the text and faults of its content in the order of
the text, so that it can report the first one. -/
namespace RecordQuery.Json

mutual

/-- A value, as far as the text goes on. -/
inductive Node where
  /-- Here the text stops being JSON. -/
  | broken
  | null
  | bool (b : Bool)
  | number (digits : List Char)
  | string (value : Option String)
  | array (items : Items)
  | object (members : Members)
deriving Repr

/-- The items of an array up to its end, or up to where the text breaks off. -/
inductive Items where
  | closed
  | broken
  | cons (head : Node) (tail : Items)
deriving Repr

/-- The members of an object up to its end, or up to where the text breaks off. -/
inductive Members where
  | closed
  | broken
  | cons (key : Option String) (value : Node) (tail : Members)
deriving Repr

end

/-- A whole text. -/
structure Document where
  root : Node
  /-- Nothing follows the root. -/
  atEnd : Bool
deriving Repr

/-! ## Building the tree -/

/-- A container that is open around the value that comes next. What it holds so
far is in reverse order. -/
inductive Frame where
  | array (before : List Node)
  | object (before : List (Option String × Node)) (key : Option String)
deriving Repr

/-- What has been read of a text. `outer` is the containers around the innermost
one, `stack` all open containers, innermost first. -/
inductive State where
  /-- A value comes next. -/
  | value (stack : List Frame)
  /-- An array has been opened. -/
  | arrayOpened (outer : List Frame)
  /-- An item has been read. -/
  | itemRead (before : List Node) (outer : List Frame)
  /-- An object has been opened. -/
  | objectOpened (outer : List Frame)
  /-- A key has to come next. -/
  | keyDue (before : List (Option String × Node)) (outer : List Frame)
  /-- A key has been read. -/
  | keyRead (before : List (Option String × Node)) (key : Option String) (outer : List Frame)
  /-- A member has been read. -/
  | memberRead (before : List (Option String × Node)) (outer : List Frame)
  /-- The root has been read. -/
  | complete (root : Node)
deriving Repr

/-- The items in reverse order, with an end. -/
def Items.ofReverse (before : List Node) (rest : Items) : Items :=
  before.foldl (fun tail n => .cons n tail) rest

/-- The members in reverse order, with an end. -/
def Members.ofReverse (before : List (Option String × Node)) (rest : Members) : Members :=
  before.foldl (fun tail (key, n) => .cons key n tail) rest

/-- The container, which breaks off with its last value `n`. -/
def Frame.breakOff (n : Node) : Frame → Node
  | .array before => .array (.ofReverse (n :: before) .broken)
  | .object before key => .object (.ofReverse ((key, n) :: before) .broken)

/-- The root, when the text breaks off in or after `n`. -/
def breakOff (stack : List Frame) (n : Node) : Node :=
  stack.foldl Frame.breakOff n

namespace State

/-- A value has been read inside the open containers. -/
def afterValue (n : Node) : List Frame → State
  | [] => .complete n
  | .array before :: outer => .itemRead (n :: before) outer
  | .object before key :: outer => .memberRead ((key, n) :: before) outer

/-- Takes a token where a value has to come. -/
def takeValue (stack : List Frame) : Token → Option State
  | .null => some (afterValue .null stack)
  | .bool b => some (afterValue (.bool b) stack)
  | .number digits => some (afterValue (.number digits) stack)
  | .string s => some (afterValue (.string s) stack)
  | .openArray => some (.arrayOpened stack)
  | .openObject => some (.objectOpened stack)
  | _ => none

/-- Takes a token, if it may come next. -/
def take? : State → Token → Option State
  | .value stack, t => takeValue stack t
  | .arrayOpened outer, .closeArray => some (afterValue (.array .closed) outer)
  | .arrayOpened outer, t => takeValue (.array [] :: outer) t
  | .itemRead before outer, .comma => some (.value (.array before :: outer))
  | .itemRead before outer, .closeArray =>
    some (afterValue (.array (.ofReverse before .closed)) outer)
  | .objectOpened outer, .closeObject => some (afterValue (.object .closed) outer)
  | .objectOpened outer, .string key => some (.keyRead [] key outer)
  | .keyDue before outer, .string key => some (.keyRead before key outer)
  | .keyRead before key outer, .colon => some (.value (.object before key :: outer))
  | .memberRead before outer, .comma => some (.keyDue before outer)
  | .memberRead before outer, .closeObject =>
    some (afterValue (.object (.ofReverse before .closed)) outer)
  | _, _ => none

/-- The root, when the text breaks off here. -/
def broken : State → Node
  | .value stack => breakOff stack .broken
  | .arrayOpened outer => breakOff outer (.array .broken)
  | .itemRead before outer => breakOff outer (.array (.ofReverse before .broken))
  | .objectOpened outer => breakOff outer (.object .broken)
  | .keyDue before outer => breakOff outer (.object (.ofReverse before .broken))
  | .keyRead before key outer =>
    breakOff outer (.object (.ofReverse ((key, .broken) :: before) .broken))
  | .memberRead before outer => breakOff outer (.object (.ofReverse before .broken))
  | .complete root => root

/-- The document with these tokens to come. -/
def document (s : State) : List Token → Document
  | [] =>
    match s with
    | .complete root => ⟨root, true⟩
    | _ => ⟨s.broken, false⟩
  | t :: ts =>
    match s.take? t with
    | some s => s.document ts
    | none => ⟨s.broken, false⟩

end State

/-- The document that a text is. -/
def Document.ofText (text : String) : Document :=
  (State.value []).document (tokens text.toList)

end RecordQuery.Json
