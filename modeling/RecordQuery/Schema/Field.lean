import RecordQuery.Filter.OperatorSet
import RecordQuery.Text.Ascii

/-! Fields: what a client may name, and the column it stands for. -/
namespace RecordQuery

open Text

/-- A word that has a meaning of its own in filter text, in any case. -/
def isReservedWord (cs : List Char) : Bool :=
  sameWord cs ['a', 'n', 'd'] || sameWord cs ['o', 'r'] ||
    sameWord cs ['t', 'r', 'u', 'e'] || sameWord cs ['f', 'a', 'l', 's', 'e']

/-- A name that filter text can refer to: it reads as one word, and the word is
not reserved. -/
def isFieldName (cs : List Char) : Bool :=
  match cs with
  | [] => false
  | c :: rest => isNameStart c && rest.all isNamePart && !isReservedWord cs

/-- A field as it is declared. Without a column it stands for the column of its
own name; without operators it allows all that apply to its type. -/
structure FieldDeclaration where
  name : String
  column : Option String := none
  type : FieldType
  operators : Option (List Operator) := none
  orderable : Bool := false
deriving DecidableEq, Repr

/-- A field of a record type. -/
structure Field where
  name : String
  /-- The SQL that the field stands for. -/
  column : String
  type : FieldType
  operators : OperatorSet
  /-- Results can be sorted by the field. -/
  orderable : Bool
deriving DecidableEq, Repr

end RecordQuery
