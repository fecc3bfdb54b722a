import RecordQuery.Proofs.Outcome
import RecordQuery.Proofs.Utf8
import RecordQuery.Request

/-!
# Encodings of a text

A text has many form encodings: each character stands for itself or is escaped
byte by byte, and a space may be a plus. What a parameter decodes to is the text
that it is an encoding of; a parameter that is an encoding of nothing is malformed.
-/

namespace RecordQuery

open Outcome
open String (utf8EncodeChar)

namespace Text.FormEncoding

/-! ## The encoding -/

/-- The character is the digit for `n` in base sixteen, in lower or in upper case. -/
def HexDigit (n : Nat) (c : Char) : Prop :=
  "0123456789abcdef".toList[n]? = some c ∨ "0123456789ABCDEF".toList[n]? = some c

instance (n : Nat) (c : Char) : Decidable (HexDigit n c) :=
  inferInstanceAs (Decidable (_ ∨ _))

/-- Each byte is written as `%` and its two hexadecimal digits. -/
inductive Escapes : List UInt8 → List Char → Prop where
  | nil : Escapes [] []
  | cons {b : UInt8} {bs : List UInt8} {high low : Char} {es : List Char}
      (highDigit : HexDigit (b.toNat / 16) high) (lowDigit : HexDigit (b.toNat % 16) low)
      (following : Escapes bs es) : Escapes (b :: bs) ('%' :: high :: low :: es)

/-- `Encodes text raw`: the characters of the text are written one after the other,
each as itself, as the escapes of its bytes in UTF-8, or, if it is a space, as a plus. -/
inductive Encodes : List Char → List Char → Prop where
  | nil : Encodes [] []
  | itself {c : Char} {cs raw : List Char} (percent : c ≠ '%') (plus : c ≠ '+')
      (following : Encodes cs raw) : Encodes (c :: cs) (c :: raw)
  | space {cs raw : List Char} (following : Encodes cs raw) : Encodes (' ' :: cs) ('+' :: raw)
  | escaped {c : Char} {cs es raw : List Char} (escape : Escapes (utf8EncodeChar c) es)
      (following : Encodes cs raw) : Encodes (c :: cs) (es ++ raw)

/-! ## Hexadecimal digits -/

theorem HexDigit.lt {n : Nat} {c : Char} (h : HexDigit n c) : n < 16 := by
  rcases h with h | h
  all_goals exact (List.getElem?_eq_some_iff.mp h).1

/-- A hexadecimal digit takes one byte. -/
theorem HexDigit.utf8Size_eq {n : Nat} {c : Char} (h : HexDigit n c) : c.utf8Size = 1 := by
  have hlower : "0123456789abcdef".toList.all (·.utf8Size == 1) = true := by decide
  have hupper : "0123456789ABCDEF".toList.all (·.utf8Size == 1) = true := by decide
  rcases h with h | h
  · exact beq_iff_eq.mp (List.all_eq_true.mp hlower c (List.mem_of_getElem? h))
  · exact beq_iff_eq.mp (List.all_eq_true.mp hupper c (List.mem_of_getElem? h))

/-- The characters from `first` on are the digits from `value` on. -/
theorem hexDigit_of_between {c : Char} {first last : Nat} (value : Nat) (hlow : first ≤ c.toNat)
    (hhigh : c.toNat ≤ last) (hvalue : value ≤ first)
    (hdigits : ∀ k ≤ last - first, HexDigit (value + k) (Char.ofNat (first + k))) :
    HexDigit (c.toNat - (first - value)) c := by
  have h := hdigits (c.toNat - first) (by omega)
  rw [show first + (c.toNat - first) = c.toNat by omega, Char.ofNat_toNat] at h
  rwa [show c.toNat - (first - value) = value + (c.toNat - first) by omega]

theorem hexDigit_of_hexValue? {c : Char} {n : Nat} (h : hexValue? c = some n) : HexDigit n c := by
  simp only [hexValue?] at h
  split at h
  · rename_i hdigit
    cases h
    exact hexDigit_of_between 0 hdigit.1 hdigit.2 (by omega) (by decide)
  · split at h
    · rename_i hupper
      cases h
      exact hexDigit_of_between 10 hupper.1 hupper.2 (by omega) (by decide)
    · split at h
      · rename_i hlower
        cases h
        exact hexDigit_of_between 10 hlower.1 hlower.2 (by omega) (by decide)
      · cases h

theorem hexValue?_of_hexDigit {c : Char} {n : Nat} (h : HexDigit n c) : hexValue? c = some n := by
  have hlower : ∀ n < 16, "0123456789abcdef".toList[n]?.bind hexValue? = some n := by decide
  have hupper : ∀ n < 16, "0123456789ABCDEF".toList[n]?.bind hexValue? = some n := by decide
  have hn := h.lt
  rcases h with hc | hc
  · have hvalue := hlower n hn
    rwa [hc] at hvalue
  · have hvalue := hupper n hn
    rwa [hc] at hvalue

/-! ## The bytes of an encoded text -/

/-- The encoded text stands for the bytes. -/
inductive Denotes : List Char → List UInt8 → Prop where
  | nil : Denotes [] []
  | escape {b : UInt8} {bs : List UInt8} {high low : Char} {raw : List Char}
      (highDigit : HexDigit (b.toNat / 16) high) (lowDigit : HexDigit (b.toNat % 16) low)
      (following : Denotes raw bs) : Denotes ('%' :: high :: low :: raw) (b :: bs)
  | space {bs : List UInt8} {raw : List Char} (following : Denotes raw bs) :
      Denotes ('+' :: raw) (32 :: bs)
  | itself {c : Char} {bs : List UInt8} {raw : List Char} (percent : c ≠ '%') (plus : c ≠ '+')
      (following : Denotes raw bs) : Denotes (c :: raw) (utf8EncodeChar c ++ bs)

theorem map_value_octets (bytes : List UInt8) (width : Nat) :
    (bytes.map (Octet.mk · width)).map Octet.value = bytes := by
  rw [List.map_map]
  exact List.map_id bytes

theorem octets_cons_of_ne {c : Char} (percent : c ≠ '%') (plus : c ≠ '+') (position : Nat)
    (cs : List Char) : octets position (c :: cs) = (octets (position + c.utf8Size) cs).map
      ((utf8EncodeChar c).map (Octet.mk · 1) ++ ·) :=
  octets.eq_5 _ _ _ (fun _ _ _ hc _ => percent hc) percent plus

/-- The values of two hexadecimal digits make up the byte that they escape. -/
theorem Denotes.escape_of_hexValue? {bs : List UInt8} {high low : Char} {m n : Nat}
    {raw : List Char} (hm : hexValue? high = some m) (hn : hexValue? low = some n)
    (h : Denotes raw bs) :
    Denotes ('%' :: high :: low :: raw) (UInt8.ofNat (m * 16 + n) :: bs) := by
  have hhigh := hexDigit_of_hexValue? hm
  have hlow := hexDigit_of_hexValue? hn
  have hmlt := hhigh.lt
  have hnlt := hlow.lt
  have hvalue : (UInt8.ofNat (m * 16 + n)).toNat = m * 16 + n :=
    UInt8.toNat_ofNat_of_lt' (by simp only [UInt8.size]; omega)
  refine .escape ?_ ?_ h
  · rwa [hvalue, show (m * 16 + n) / 16 = m by omega]
  · rwa [hvalue, show (m * 16 + n) % 16 = n by omega]

theorem denotes_of_octets {position : Nat} {raw : List Char} {os : List Octet}
    (h : octets position raw = .ok os) : Denotes raw (os.map Octet.value) := by
  induction position, raw using octets.induct generalizing os with
  | case1 position =>
    cases h
    exact .nil
  | case2 position high low raw m n hn hm ih =>
    simp only [octets, hm, hn] at h
    obtain ⟨os', hos', rfl⟩ := map_eq_ok.mp h
    exact .escape_of_hexValue? hm hn (ih hos')
  | case3 position high low raw hbad =>
    simp only [octets] at h
    cases h
  | case4 position raw hshort =>
    rw [octets.eq_3 _ _ hshort] at h
    cases h
  | case5 position raw ih =>
    obtain ⟨os', hos', rfl⟩ := map_eq_ok.mp h
    exact .space (ih hos')
  | case6 position c raw _ percent plus ih =>
    rw [octets_cons_of_ne percent plus] at h
    obtain ⟨os', hos', rfl⟩ := map_eq_ok.mp h
    rw [List.map_append, map_value_octets]
    exact .itself percent plus (ih hos')

/-- Bytes behind others take as much of the encoded text as they take alone. -/
theorem encodedLength_append (os os' : List Octet) (n : Nat) :
    encodedLength (os ++ os') (os.length + n) =
      encodedLength os os.length + encodedLength os' n := by
  induction os with
  | nil => simp [encodedLength]
  | cons o os ih =>
    rw [List.cons_append, List.length_cons, Nat.add_right_comm, encodedLength, encodedLength, ih,
      Nat.add_assoc]

/-- Bytes that stand for themselves take one byte each. -/
theorem encodedLength_map_one (bs : List UInt8) :
    encodedLength (bs.map (Octet.mk · 1)) bs.length = bs.length := by
  induction bs with
  | nil => rfl
  | cons b bs ih => rw [List.map_cons, List.length_cons, encodedLength, ih, Nat.add_comm]

/-- What denotes bytes is read to its end, whatever comes after it. The bytes take as much of the
text as it has. -/
theorem octets_append {front : List Char} {bs : List UInt8} (h : Denotes front bs)
    (position : Nat) (back : List Char) : ∃ os, os.map Octet.value = bs ∧
      encodedLength os os.length = byteLength front ∧
      octets position (front ++ back) =
        (octets (position + byteLength front) back).map (os ++ ·) := by
  induction h generalizing position with
  | nil =>
    refine ⟨[], rfl, rfl, ?_⟩
    rw [List.nil_append, byteLength_nil, Nat.add_zero]
    cases octets position back <;> rfl
  | @escape b bs high low front highDigit lowDigit _ ih =>
    obtain ⟨os, rfl, hwidth, hread⟩ := ih (position + 3)
    have hvalue : b.toNat / 16 * 16 + b.toNat % 16 = b.toNat := by omega
    have hlength : byteLength ('%' :: high :: low :: front) = 3 + byteLength front := by
      have hpercent : ('%' : Char).utf8Size = 1 := rfl
      have hhigh := highDigit.utf8Size_eq
      have hlow := lowDigit.utf8Size_eq
      simp only [byteLength_cons]
      omega
    refine ⟨⟨b, 3⟩ :: os, rfl, ?_, ?_⟩
    · rw [hlength, ← hwidth]
      rfl
    · rw [hlength, ← Nat.add_assoc]
      simp only [List.cons_append, octets, hexValue?_of_hexDigit highDigit,
        hexValue?_of_hexDigit lowDigit, hvalue, UInt8.ofNat_toNat, hread, map_map]
      rfl
  | @space bs front _ ih =>
    obtain ⟨os, rfl, hwidth, hread⟩ := ih (position + 1)
    have hlength : byteLength ('+' :: front) = 1 + byteLength front := rfl
    refine ⟨⟨32, 1⟩ :: os, rfl, ?_, ?_⟩
    · rw [hlength, ← hwidth]
      rfl
    · rw [hlength, ← Nat.add_assoc]
      simp only [List.cons_append, octets, hread, map_map]
      rfl
  | @itself c bs front percent plus _ ih =>
    obtain ⟨os, rfl, hwidth, hread⟩ := ih (position + c.utf8Size)
    refine ⟨(utf8EncodeChar c).map (Octet.mk · 1) ++ os, ?_, ?_, ?_⟩
    · rw [List.map_append, map_value_octets]
    · have hself := encodedLength_map_one (utf8EncodeChar c)
      rw [List.length_append, encodedLength_append, hwidth, byteLength_cons, List.length_map, hself,
        String.length_utf8EncodeChar]
    · rw [byteLength_cons, ← Nat.add_assoc, List.cons_append, octets_cons_of_ne percent plus,
        hread, map_map]
      congr 1
      funext os'
      exact (List.append_assoc _ _ _).symm

theorem octets_of_denotes {raw : List Char} {bs : List UInt8} (h : Denotes raw bs)
    (position : Nat) : ∃ os, octets position raw = .ok os ∧ os.map Octet.value = bs := by
  obtain ⟨os, hvalue, -, hread⟩ := octets_append h position []
  rw [List.append_nil] at hread
  refine ⟨os, ?_, hvalue⟩
  rw [hread]
  show Except.ok (os ++ []) = _
  rw [List.append_nil]

/-! ## Characters in the bytes -/

theorem Denotes.of_escapes {bs tail : List UInt8} {es raw : List Char} (h : Escapes bs es)
    (hraw : Denotes raw tail) : Denotes (es ++ raw) (bs ++ tail) := by
  induction h with
  | nil => exact hraw
  | cons highDigit lowDigit _ ih => exact .escape highDigit lowDigit ih

theorem Encodes.denotes {cs raw : List Char} (h : Encodes cs raw) :
    Denotes raw (encodeUtf8 cs) := by
  induction h with
  | nil => exact .nil
  | itself percent plus _ ih => exact .itself percent plus ih
  | space _ ih => exact .space ih
  | escaped escape _ ih => exact .of_escapes escape ih

/-- Bytes that start no character are escaped, as whatever stands for itself starts one. -/
theorem Denotes.escapes {bs tail : List UInt8} {raw : List Char} (h : Denotes raw (bs ++ tail))
    (hbs : ∀ b ∈ bs, ¬ b.IsUTF8FirstByte) :
    ∃ es raw', raw = es ++ raw' ∧ Escapes bs es ∧ Denotes raw' tail := by
  induction bs generalizing raw with
  | nil => exact ⟨[], raw, rfl, .nil, h⟩
  | cons b bs ih =>
    obtain ⟨hb, hbs⟩ := List.forall_mem_cons.mp hbs
    generalize hbytes : b :: bs ++ tail = bytes at h
    cases h with
    | nil => cases hbytes
    | escape highDigit lowDigit following =>
      obtain ⟨rfl, rfl⟩ := List.cons.inj hbytes
      obtain ⟨es, raw', rfl, hes, hraw'⟩ := ih following hbs
      exact ⟨_, raw', rfl, .cons highDigit lowDigit hes, hraw'⟩
    | space =>
      obtain ⟨rfl, -⟩ := List.cons.inj hbytes
      exact absurd (.inl rfl) hb
    | @itself c =>
      obtain ⟨b', bs', hc, hb', -⟩ := utf8EncodeChar_eq_cons c
      rw [hc] at hbytes
      obtain ⟨rfl, -⟩ := List.cons.inj hbytes
      exact absurd hb' hb

/-- What stands for no bytes is empty. -/
theorem Denotes.eq_nil {raw : List Char} (h : Denotes raw []) : raw = [] := by
  generalize hbytes : ([] : List UInt8) = bytes at h
  cases h with
  | nil => rfl
  | escape | space => cases hbytes
  | itself => exact absurd (List.append_eq_nil_iff.mp hbytes.symm).1 String.utf8EncodeChar_ne_nil

/-- Where the bytes begin with a text, the encoded text begins with an encoding of it. -/
theorem Denotes.exists_append {cs raw : List Char} {tail : List UInt8}
    (h : Denotes raw (encodeUtf8 cs ++ tail)) :
    ∃ front back, raw = front ++ back ∧ Encodes cs front ∧ Denotes back tail := by
  induction cs generalizing raw with
  | nil => exact ⟨[], raw, rfl, .nil, h⟩
  | cons c cs ih =>
    generalize hbytes : encodeUtf8 (c :: cs) ++ tail = bytes at h
    change utf8EncodeChar c ++ encodeUtf8 cs ++ tail = bytes at hbytes
    rw [List.append_assoc] at hbytes
    cases h with
    | nil => exact absurd (List.append_eq_nil_iff.mp hbytes).1 String.utf8EncodeChar_ne_nil
    | escape highDigit lowDigit following =>
      -- the first byte is escaped, so the others of the character are
      obtain ⟨b, bs, hc, -, hbs⟩ := utf8EncodeChar_eq_cons c
      rw [hc] at hbytes
      obtain ⟨rfl, rfl⟩ := List.cons.inj hbytes
      obtain ⟨es, raw', rfl, hes, hraw'⟩ := following.escapes hbs
      have hescape := Escapes.cons highDigit lowDigit hes
      rw [← hc] at hescape
      obtain ⟨front, back, rfl, hfront, hback⟩ := ih hraw'
      exact ⟨_, back, (List.append_assoc (_ :: _ :: _ :: es) front back).symm,
        .escaped hescape hfront, hback⟩
    | space following =>
      obtain ⟨rfl, rfl⟩ := utf8EncodeChar_append_inj (d := ' ') hbytes
      obtain ⟨front, back, rfl, hfront, hback⟩ := ih following
      exact ⟨_, back, rfl, .space hfront, hback⟩
    | itself percent plus following =>
      obtain ⟨rfl, rfl⟩ := utf8EncodeChar_append_inj hbytes
      obtain ⟨front, back, rfl, hfront, hback⟩ := ih following
      exact ⟨_, back, rfl, .itself percent plus hfront, hback⟩

theorem Denotes.encodes {cs raw : List Char} (h : Denotes raw (encodeUtf8 cs)) :
    Encodes cs raw := by
  rw [← List.append_nil (encodeUtf8 cs)] at h
  obtain ⟨front, back, rfl, hfront, hback⟩ := h.exists_append
  rwa [hback.eq_nil, List.append_nil]

/-- **Decoding inverts encoding**, and nothing else decodes. -/
theorem decode_eq_ok_iff {raw cs : List Char} : decode raw = .ok cs ↔ Encodes cs raw := by
  constructor
  · intro h
    unfold decode at h
    split at h
    · cases h
    · rename_i os hos
      split at h
      · rename_i text htext
        cases h
        apply Denotes.encodes
        rw [decodeUtf8_eq_ok_iff.mp htext]
        exact denotes_of_octets hos
      · cases h
  · intro h
    obtain ⟨os, hos, hbytes⟩ := octets_of_denotes h.denotes 0
    simp only [decode, hos, hbytes, decodeUtf8_encodeUtf8]

/-- What is encoded can be told from its encoding. -/
theorem Encodes.unique {cs ds raw : List Char} (h : Encodes cs raw) (h' : Encodes ds raw) :
    cs = ds := by
  have hds := decode_eq_ok_iff.mpr h'
  rw [decode_eq_ok_iff.mpr h] at hds
  exact Except.ok.inj hds

end Text.FormEncoding

/-! ## Request parameters -/

namespace Request

open Text
open Text.FormEncoding (Encodes decodeParameter decode_eq_ok_iff)

variable {s : String}

theorem isBlankText_eq_true : isBlankText s = true ↔ ∀ c ∈ s.toList, isBlank c = true :=
  List.all_eq_true

theorem isBlankText_eq_false : isBlankText s = false ↔ ∃ c ∈ s.toList, isBlank c = false := by
  simp [isBlankText]

theorem decode_of_blank (h : isBlankText s = true) : decode (some s) = .ok none := by
  simp [decode, decodeParameter, h, Except.mapError]

theorem decode_of_encodes {cs : List Char} (h : isBlankText s = false)
    (hcs : Encodes cs s.toList) : decode (some s) = .ok (some (String.ofList cs)) := by
  simp [decode, decodeParameter, h, decode_eq_ok_iff.mpr hcs, Except.mapError, Except.map]

theorem decode_of_not_encodes (h : isBlankText s = false) (hs : ¬ ∃ cs, Encodes cs s.toList) :
    ∃ e, decode (some s) = .error (.malformedInput e) := by
  cases hdecode : FormEncoding.decode s.toList with
  | ok cs => exact absurd ⟨cs, decode_eq_ok_iff.mp hdecode⟩ hs
  | error e =>
    refine ⟨e, ?_⟩
    simp [decode, decodeParameter, h, hdecode, Except.mapError, Except.map]

/-- **Decoding inverts exactly the form encodings**: a parameter decodes to the text that it is
an encoding of, and is malformed if it is an encoding of nothing. It has no text only if it is
absent, or blank before it is decoded. -/
theorem decode_iff_encodes (raw : Option String) :
    (decode raw = .ok none ↔
      raw = none ∨ ∃ s, raw = some s ∧ ∀ c ∈ s.toList, isBlank c = true) ∧
    (∀ text : String, decode raw = .ok (some text) ↔
      ∃ s, raw = some s ∧ (∃ c ∈ s.toList, isBlank c = false) ∧
        Encodes text.toList s.toList) ∧
    ((∃ e, decode raw = .error (.malformedInput e)) ↔
      ∃ s, raw = some s ∧ (∃ c ∈ s.toList, isBlank c = false) ∧
        ¬ ∃ cs, Encodes cs s.toList) := by
  cases raw with
  | none =>
    have hdecode : decode none = .ok none := rfl
    simp [hdecode]
  | some s =>
    simp only [Option.some.injEq, reduceCtorEq, false_or, exists_eq_left', ← isBlankText_eq_true,
      ← isBlankText_eq_false]
    by_cases hblank : isBlankText s = true
    · simp [decode_of_blank hblank, hblank]
    · have hs := Bool.eq_false_iff.mpr hblank
      by_cases hencodes : ∃ cs, Encodes cs s.toList
      · obtain ⟨cs, hcs⟩ := hencodes
        have htext (text : String) : String.ofList cs = text ↔ Encodes text.toList s.toList := by
          constructor
          · rintro rfl
            rwa [String.toList_ofList]
          · intro h
            rw [hcs.unique h, String.ofList_toList]
        have hexists : ∃ cs, Encodes cs s.toList := ⟨cs, hcs⟩
        simp [decode_of_encodes hs hcs, hs, htext, hexists]
      · obtain ⟨e, he⟩ := decode_of_not_encodes hs hencodes
        have hnone (text : String) : ¬ Encodes text.toList s.toList :=
          fun h => hencodes ⟨_, h⟩
        simp [he, hs, hnone, hencodes]

/-- A plus that is escaped is no space, and an escaped letter joins one that stands for itself. -/
example : decode (some "%2B+%c3%A9é") = .ok (some "+ éé") := by decide +kernel

end Request

end RecordQuery
