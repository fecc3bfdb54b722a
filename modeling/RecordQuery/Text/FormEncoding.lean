import RecordQuery.Text.Blank
import RecordQuery.Text.Utf8

/-! Form encoding, in which request parameters arrive: `+` stands for a space
and `%` with two hexadecimal digits for one byte of UTF-8. -/
namespace RecordQuery.Text.FormEncoding

/-- A decoded byte and the number of bytes it takes in the encoded text. -/
structure Octet where
  value : UInt8
  width : Nat
deriving DecidableEq, Repr

/-- Why an encoded text denotes no text. -/
inductive Cause where
  | badEscape
  | notUtf8
deriving DecidableEq, Repr

def Cause.message : Cause → String
  | .badEscape => "'%' must be followed by two hex digits"
  | .notUtf8 => "decoded text is not valid UTF-8"

/-- A cause and the byte of the encoded text where it lies. -/
structure DecodeError where
  position : Nat
  cause : Cause
deriving DecidableEq, Repr

/-- The value of a hexadecimal digit of either case. -/
def hexValue? (c : Char) : Option Nat :=
  let n := c.toNat
  if 48 ≤ n ∧ n ≤ 57 then some (n - 48)
  else if 65 ≤ n ∧ n ≤ 70 then some (n - 55)
  else if 97 ≤ n ∧ n ≤ 102 then some (n - 87)
  else none

/-- The bytes that `cs` denotes, or the position of the first `%` that starts
no escape. `position` is that of the first character of `cs`. -/
def octets (position : Nat) : List Char → Except Nat (List Octet)
  | [] => .ok []
  | '%' :: high :: low :: rest =>
    match hexValue? high, hexValue? low with
    | some h, some l =>
      (octets (position + 3) rest).map (⟨UInt8.ofNat (h * 16 + l), 3⟩ :: ·)
    | _, _ => .error position
  | '%' :: _ => .error position
  | '+' :: rest => (octets (position + 1) rest).map (⟨32, 1⟩ :: ·)
  | c :: rest =>
    (octets (position + c.utf8Size) rest).map
      ((String.utf8EncodeChar c).map (⟨·, 1⟩) ++ ·)

/-- The length, in the encoded text, of the first `n` decoded bytes. -/
def encodedLength : List Octet → Nat → Nat
  | o :: os, n + 1 => o.width + encodedLength os n
  | _, _ => 0

/-- The text that `cs` encodes. A bad escape anywhere is reported before bytes
that are not UTF-8. -/
def decode (cs : List Char) : Except DecodeError (List Char) :=
  match octets 0 cs with
  | .error position => .error ⟨position, .badEscape⟩
  | .ok os =>
    match decodeUtf8 (os.map Octet.value) with
    | .ok text => .ok text
    | .error valid => .error ⟨encodedLength os valid, .notUtf8⟩

/-- The text of a request parameter. A parameter that is absent or blank puts
no constraint on the request and has none. -/
def decodeParameter (raw : Option String) : Except DecodeError (Option String) :=
  match raw with
  | none => .ok none
  | some s =>
    if isBlankText s then .ok none
    else (decode s.toList).map fun cs => some (String.ofList cs)

end RecordQuery.Text.FormEncoding
