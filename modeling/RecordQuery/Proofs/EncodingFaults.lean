import Mathlib.Order.Bounds.Basic
import RecordQuery.Proofs.FormEncoding

/-!
# Where an encoding is at fault

A malformed parameter is told by one byte of the encoded text. A `%` that starts no escape comes
before all else, and the first of them is told. Without one, the text denotes bytes, and the place
is where the characters at their front end: what stands before it encodes a text, and the bytes
behind it begin with no character. A byte may be written as itself or in three characters, and
still that place is never inside a character or an escape, for a character that is read was
written by itself or byte by byte.
-/

namespace RecordQuery

open String (utf8EncodeChar)
open Outcome Text

namespace Text.FormEncoding

/-! ## Percent signs that start no escape -/

/-- Two hexadecimal digits come first. -/
def TwoHexDigits (cs : List Char) : Prop :=
  ∃ high low rest, cs = high :: low :: rest ∧ (∃ n, HexDigit n high) ∧ ∃ n, HexDigit n low

/-- At the byte of the text stands a `%` that is not followed by two hexadecimal digits. -/
def BarePercentAt (raw : List Char) (position : Nat) : Prop :=
  ∃ before after, raw = before ++ '%' :: after ∧ byteLength before = position ∧
    ¬ TwoHexDigits after

theorem not_hexDigit {c : Char} (hc : hexValue? c = none) (n : Nat) : ¬ HexDigit n c := by
  intro h
  rw [hexValue?_of_hexDigit h] at hc
  cases hc

/-- Each `%` at the front of the text starts an escape, and the escape ends there too. -/
def EscapesWithin (front rest : List Char) : Prop :=
  ∀ before after, front ++ rest = before ++ '%' :: after → byteLength before < byteLength front →
    TwoHexDigits after ∧ byteLength before + 3 ≤ byteLength front

/-- Another character moves the escapes. -/
theorem EscapesWithin.cons {c : Char} {front rest : List Char} (hc : c ≠ '%')
    (h : EscapesWithin front rest) : EscapesWithin (c :: front) rest := by
  intro before after heq hlt
  cases before with
  | nil =>
    cases heq
    exact absurd rfl hc
  | cons d before =>
    simp only [List.cons_append, List.cons.injEq] at heq
    obtain ⟨rfl, heq⟩ := heq
    simp only [byteLength_cons] at hlt ⊢
    obtain ⟨hdigits, hle⟩ := h before after heq (by omega)
    exact ⟨hdigits, by omega⟩

/-- In what denotes bytes every `%` starts an escape. -/
theorem Denotes.escapesWithin {front : List Char} {bs : List UInt8} (h : Denotes front bs)
    (rest : List Char) : EscapesWithin front rest := by
  induction h with
  | nil =>
    intro before after _ hlt
    simp at hlt
  | @escape b bs high low front highDigit lowDigit _ ih =>
    have hhigh := highDigit.utf8Size_eq
    have hlow := lowDigit.utf8Size_eq
    have hpercent : ('%' : Char).utf8Size = 1 := rfl
    have hdigits : EscapesWithin (high :: low :: front) rest := by
      refine .cons ?_ (.cons ?_ ih)
      · rintro rfl
        exact not_hexDigit rfl _ highDigit
      · rintro rfl
        exact not_hexDigit rfl _ lowDigit
    intro before after heq hlt
    cases before with
    | nil =>
      cases heq
      refine ⟨⟨high, low, front ++ rest, rfl, ⟨_, highDigit⟩, ⟨_, lowDigit⟩⟩, ?_⟩
      simp only [byteLength_cons, byteLength_nil]
      omega
    | cons d before =>
      simp only [List.cons_append, List.cons.injEq] at heq
      obtain ⟨rfl, heq⟩ := heq
      rw [byteLength_cons, byteLength_cons] at hlt ⊢
      obtain ⟨htwo, hle⟩ := hdigits before after heq (by omega)
      exact ⟨htwo, by omega⟩
  | space _ ih => exact ih.cons (by decide)
  | itself percent _ _ ih => exact ih.cons percent

/-- What denotes bytes has no such sign. -/
theorem Denotes.not_barePercentAt {raw : List Char} {bs : List UInt8} (h : Denotes raw bs)
    (position : Nat) : ¬ BarePercentAt raw position := by
  rintro ⟨before, after, rfl, -, hbare⟩
  have hlt : byteLength before < byteLength (before ++ '%' :: after) := by
    have hpos := ('%' : Char).utf8Size_pos
    rw [byteLength_append, byteLength_cons]
    omega
  exact hbare (h.escapesWithin [] before after (List.append_nil _) hlt).1

/-- Reading stops at a sign that starts no escape, and has read bytes up to it. -/
theorem exists_of_octets_eq_error {position p : Nat} {raw : List Char}
    (h : octets position raw = .error p) : ∃ before after bs, raw = before ++ '%' :: after ∧
      position + byteLength before = p ∧ ¬ TwoHexDigits after ∧ Denotes before bs := by
  induction position, raw using octets.induct with
  | case1 position => cases h
  | case2 position high low raw m n hn hm ih =>
    simp only [octets, hm, hn] at h
    obtain ⟨before, after, bs, rfl, hp, hbare, hbefore⟩ := ih (map_eq_error.mp h)
    refine ⟨_, after, _, rfl, ?_, hbare, .escape_of_hexValue? hm hn hbefore⟩
    have hhigh := (hexDigit_of_hexValue? hm).utf8Size_eq
    have hlow := (hexDigit_of_hexValue? hn).utf8Size_eq
    have hpercent : ('%' : Char).utf8Size = 1 := rfl
    simp only [byteLength_cons]
    omega
  | case3 position high low raw hbad =>
    simp only [octets] at h
    cases h
    refine ⟨[], high :: low :: raw, [], rfl, rfl, ?_, .nil⟩
    rintro ⟨x, y, rest, heq, ⟨m, hm⟩, ⟨n, hn⟩⟩
    cases heq
    exact hbad m n (hexValue?_of_hexDigit hm) (hexValue?_of_hexDigit hn)
  | case4 position raw hshort =>
    rw [octets.eq_3 _ _ hshort] at h
    cases h
    refine ⟨[], raw, [], rfl, rfl, ?_, .nil⟩
    rintro ⟨x, y, rest, rfl, -, -⟩
    exact hshort x y rest rfl
  | case5 position raw ih =>
    obtain ⟨before, after, bs, rfl, hp, hbare, hbefore⟩ := ih (map_eq_error.mp h)
    refine ⟨_, after, _, rfl, ?_, hbare, .space hbefore⟩
    rw [byteLength_cons, ← hp, Nat.add_assoc]
    rfl
  | case6 position c raw _ percent plus ih =>
    rw [octets_cons_of_ne percent plus] at h
    obtain ⟨before, after, bs, rfl, hp, hbare, hbefore⟩ := ih (map_eq_error.mp h)
    refine ⟨_, after, _, rfl, ?_, hbare, .itself percent plus hbefore⟩
    rw [byteLength_cons, ← hp, Nat.add_assoc]

/-- **A bad escape is told at the first sign that starts none.** -/
theorem isLeast_of_octets_eq_error {p : Nat} {raw : List Char} (h : octets 0 raw = .error p) :
    IsLeast {q | BarePercentAt raw q} p := by
  obtain ⟨before, after, bs, rfl, hp, hbare, hbefore⟩ := exists_of_octets_eq_error h
  rw [Nat.zero_add] at hp
  refine ⟨⟨before, after, rfl, hp, hbare⟩, ?_⟩
  rintro q ⟨before', after', heq, rfl, hbare'⟩
  by_contra hlt
  have hfront := hbefore.escapesWithin ('%' :: after) before' after' heq (by omega)
  exact hbare' hfront.1

/-! ## Bytes that are no text -/

/-- The text is cut at the byte, between two of its characters and outside its escapes. What stands
before encodes a text; the bytes that are denoted by the rest begin with no character. -/
structure StopsAt (raw : List Char) (position : Nat) : Prop where
  inside : position < byteLength raw
  /-- Each `%` is at the byte or after it, or the three characters of its escape are before. -/
  outsideEscapes : ∀ before after, raw = before ++ '%' :: after →
    position ≤ byteLength before ∨ byteLength before + 3 ≤ position
  cut : ∃ front back, raw = front ++ back ∧ byteLength front = position ∧
    (∃ text, Encodes text front) ∧
    ∃ bytes, Denotes back bytes ∧ ∀ c, ¬ utf8EncodeChar c <+: bytes

/-- **Bytes that are no text are told where the characters at their front end.** -/
theorem stopsAt_encodedLength {raw : List Char} {os : List Octet} {n : Nat}
    (hos : octets 0 raw = .ok os) (h : decodeUtf8 (os.map Octet.value) = .error n) :
    StopsAt raw (encodedLength os n) := by
  have hraw := denotes_of_octets hos
  obtain ⟨text, tail, hbytes, rfl, hne, hstop⟩ := exists_of_decodeUtf8_eq_error h
  rw [hbytes] at hraw
  obtain ⟨front, back, rfl, hfront, hback⟩ := hraw.exists_append
  -- the octets of the front are those that `n` counts
  obtain ⟨fs, hvalues, hwidth, hread⟩ := octets_append hfront.denotes 0 back
  have hlength : fs.length = (encodeUtf8 text).length := by
    rw [← hvalues, List.length_map]
  have hposition : encodedLength os (encodeUtf8 text).length = byteLength front := by
    rw [hos] at hread
    obtain ⟨bs, -, rfl⟩ := map_eq_ok.mp hread.symm
    have hfs := encodedLength_append fs bs 0
    rw [Nat.add_zero, hwidth] at hfs
    rw [← hlength, hfs]
    cases bs <;> rfl
  rw [hposition]
  refine ⟨?_, ?_, front, back, rfl, rfl, ⟨text, hfront⟩, tail, hback, hstop⟩
  · cases back with
    | nil =>
      cases hback
      exact absurd rfl hne
    | cons c back =>
      have hpos := c.utf8Size_pos
      rw [byteLength_append, byteLength_cons]
      omega
  · intro before after heq
    by_cases hlt : byteLength before < byteLength front
    · exact .inr (hfront.denotes.escapesWithin back before after heq hlt).2
    · exact .inl (Nat.le_of_not_lt hlt)

/-- **A text that encodes nothing is at fault at one place.** -/
theorem fault_of_decode {raw : List Char} {e : DecodeError} (h : decode raw = .error e) :
    e.cause = .badEscape ∧ IsLeast {p | BarePercentAt raw p} e.position ∨
      (∀ p, ¬ BarePercentAt raw p) ∧ e.cause = .notUtf8 ∧ StopsAt raw e.position := by
  unfold decode at h
  split at h
  · rename_i p hp
    cases h
    exact .inl ⟨rfl, isLeast_of_octets_eq_error hp⟩
  · rename_i os hos
    split at h
    · cases h
    · rename_i n hn
      cases h
      exact .inr ⟨(denotes_of_octets hos).not_barePercentAt, rfl, stopsAt_encodedLength hos hn⟩

end Text.FormEncoding

/-! ## Request parameters -/

namespace Request

open Text.FormEncoding (BarePercentAt StopsAt fault_of_decode)

/-- A parameter that is refused is not blank, and its text encodes nothing. -/
theorem exists_of_decode_eq_error {s : String} {err : QueryError}
    (h : decode (some s) = .error err) :
    ∃ e, err = .malformedInput e ∧ FormEncoding.decode s.toList = .error e := by
  cases hblank : isBlankText s with
  | true =>
    rw [decode_of_blank hblank] at h
    cases h
  | false =>
    cases hdecode : FormEncoding.decode s.toList with
    | ok cs =>
      rw [decode_of_encodes hblank (FormEncoding.decode_eq_ok_iff.mp hdecode)] at h
      cases h
    | error e =>
      simp only [decode, FormEncoding.decodeParameter, hblank, hdecode] at h
      cases h
      exact ⟨e, rfl, rfl⟩

/-- **A malformed parameter is told at the offending place**: at the first `%` that starts no
escape, if there is one, and otherwise where the characters at the front of the bytes end, which
is neither inside a character nor inside an escape. -/
theorem faultAt_of_decode {s : String} {err : QueryError} (h : decode (some s) = .error err) :
    ∃ e, err = .malformedInput e ∧
      ((∃ p, BarePercentAt s.toList p) →
        e.cause = .badEscape ∧ IsLeast {p | BarePercentAt s.toList p} e.position) ∧
      ((¬ ∃ p, BarePercentAt s.toList p) →
        e.cause = .notUtf8 ∧ StopsAt s.toList e.position) := by
  obtain ⟨e, rfl, hdecode⟩ := exists_of_decode_eq_error h
  refine ⟨e, rfl, ?_⟩
  rcases fault_of_decode hdecode with ⟨hcause, hleast⟩ | ⟨hnone, hcause, hstops⟩
  · exact ⟨fun _ => ⟨hcause, hleast⟩, fun hno => absurd ⟨_, hleast.1⟩ hno⟩
  · exact ⟨fun ⟨p, hp⟩ => absurd hp (hnone p), fun _ => ⟨hcause, hstops⟩⟩

/-- The first of two bad escapes; and an escaped byte that begins a character, before a letter that
stands for itself. -/
theorem faultAt_of_decode_mixed :
    (decode (some "é%41%4+%zz") = .error (.malformedInput ⟨5, .badEscape⟩) ∧
      IsLeast {p | BarePercentAt "é%41%4+%zz".toList p} 5) ∧
    decode (some "é+Jos%c3%A9%C3é") = .error (.malformedInput ⟨12, .notUtf8⟩) ∧
      StopsAt "é+Jos%c3%A9%C3é".toList 12 := by
  have hescape : decode (some "é%41%4+%zz") = .error (.malformedInput ⟨5, .badEscape⟩) := by
    decide +kernel
  have hbytes : decode (some "é+Jos%c3%A9%C3é") = .error (.malformedInput ⟨12, .notUtf8⟩) := by
    decide +kernel
  refine ⟨⟨hescape, ?_⟩, hbytes, ?_⟩
  · obtain ⟨e, he, hbare, -⟩ := faultAt_of_decode hescape
    cases he
    have hsign : BarePercentAt "é%41%4+%zz".toList 5 := by
      refine ⟨['é', '%', '4', '1'], ['4', '+', '%', 'z', 'z'], by decide, by decide, ?_⟩
      rintro ⟨high, low, rest, heq, -, n, hn⟩
      cases heq
      exact FormEncoding.not_hexDigit rfl n hn
    exact (hbare ⟨5, hsign⟩).2
  · obtain ⟨e, he, -, hstops⟩ := faultAt_of_decode hbytes
    cases he
    refine (hstops ?_).2
    rintro ⟨p, hp⟩
    have hoctets : ∃ os, FormEncoding.octets 0 "é+Jos%c3%A9%C3é".toList = .ok os := ⟨_, rfl⟩
    obtain ⟨os, hos⟩ := hoctets
    exact (FormEncoding.denotes_of_octets hos).not_barePercentAt p hp

end Request

end RecordQuery
