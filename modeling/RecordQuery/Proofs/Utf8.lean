import RecordQuery.Text.Utf8

/-!
# UTF-8 read back

Bytes encode one text at most, and reading them gives it. The first byte of a
character cannot be taken for one of those after it, so the bytes of a text can
be cut into characters in one way only. And texts are compared as their bytes are.
-/

namespace RecordQuery.Text

open String (utf8EncodeChar)

/-! ## One character -/

theorem leadingChar?_append (c : Char) (bytes : List UInt8) :
    leadingChar? (utf8EncodeChar c ++ bytes) = some c := by
  have hlength : (utf8EncodeChar c).length ≤ 4 := by
    rw [String.length_utf8EncodeChar]
    exact c.utf8Size_le_four
  rw [leadingChar?, List.take_append, List.take_of_length_le hlength, List.toByteArray_append]
  exact ByteArray.utf8DecodeChar?_utf8EncodeChar_append

theorem leadingChar?_eq_some_iff {bytes : List UInt8} {c : Char} :
    leadingChar? bytes = some c ↔ utf8EncodeChar c <+: bytes := by
  constructor
  · intro h
    obtain ⟨rest, hrest⟩ := ByteArray.exists_of_utf8DecodeChar?_eq_some h
    have htake : bytes.take 4 = utf8EncodeChar c ++ rest.data.toList := by
      have hdata := congrArg (fun b => b.data.toList) hrest
      simpa [ByteArray.data_append] using hdata
    have hfront : utf8EncodeChar c <+: bytes.take 4 := by
      rw [htake]
      exact List.prefix_append _ _
    exact hfront.trans (List.take_prefix 4 bytes)
  · rintro ⟨rest, rfl⟩
    exact leadingChar?_append c rest

/-- Two texts that begin with the same bytes begin with the same character. -/
theorem utf8EncodeChar_append_inj {c d : Char} {as bs : List UInt8}
    (h : utf8EncodeChar c ++ as = utf8EncodeChar d ++ bs) : c = d ∧ as = bs := by
  have hc := leadingChar?_append c as
  rw [h, leadingChar?_append d bs] at hc
  obtain rfl := Option.some.inj hc
  exact ⟨rfl, List.append_cancel_left h⟩

/-- A byte that starts a character, and bytes that start none. -/
theorem utf8EncodeChar_eq_cons (c : Char) : ∃ b bs, utf8EncodeChar c = b :: bs ∧
    b.IsUTF8FirstByte ∧ ∀ b' ∈ bs, ¬ b'.IsUTF8FirstByte := by
  obtain ⟨b, bs, hbytes⟩ := List.exists_cons_of_ne_nil (String.utf8EncodeChar_ne_nil (c := c))
  have hfirst (i : Nat) (hi : i < (b :: bs).length) : (b :: bs)[i].IsUTF8FirstByte ↔ i = 0 := by
    have hbyte : i < (utf8EncodeChar c).length := by rwa [hbytes]
    have hstart : (utf8EncodeChar c)[i].IsUTF8FirstByte ↔ i = 0 :=
      UInt8.isUTF8FirstByte_getElem_utf8EncodeChar
    simpa only [hbytes] using hstart
  refine ⟨b, bs, hbytes, (hfirst 0 (by simp)).mpr rfl, fun b' hb' hstart => ?_⟩
  obtain ⟨i, hi, rfl⟩ := List.getElem_of_mem hb'
  exact absurd ((hfirst (i + 1) (by simpa using hi)).mp hstart) (Nat.succ_ne_zero i)

/-! ## Whole texts -/

theorem decodeUtf8_encodeUtf8 (cs : List Char) : decodeUtf8 (encodeUtf8 cs) = .ok cs := by
  induction cs with
  | nil => rw [decodeUtf8]; rfl
  | cons c cs ih =>
    have hbytes : encodeUtf8 (c :: cs) = utf8EncodeChar c ++ encodeUtf8 cs := rfl
    have hempty : (utf8EncodeChar c ++ encodeUtf8 cs).isEmpty = false := by
      simp [String.utf8EncodeChar_ne_nil]
    have hdrop : (utf8EncodeChar c ++ encodeUtf8 cs).drop c.utf8Size = encodeUtf8 cs := by
      rw [← String.length_utf8EncodeChar, List.drop_left]
    rw [hbytes, decodeUtf8, hempty, leadingChar?_append]
    simp only [hdrop, ih, Bool.false_eq_true, if_false]

theorem encodeUtf8_of_decodeUtf8 {bytes : List UInt8} {cs : List Char}
    (h : decodeUtf8 bytes = .ok cs) : encodeUtf8 cs = bytes := by
  induction bytes using decodeUtf8.induct generalizing cs with
  | case1 bytes hempty =>
    rw [decodeUtf8, if_pos hempty] at h
    cases h
    exact (List.isEmpty_iff.mp hempty).symm
  | case2 bytes hempty hnone =>
    rw [decodeUtf8, if_neg hempty, hnone] at h
    cases h
  | case3 bytes hempty c hsome ds hds ih =>
    rw [decodeUtf8, if_neg hempty, hsome] at h
    simp only [hds] at h
    cases h
    obtain ⟨rest, rfl⟩ := leadingChar?_eq_some_iff.mp hsome
    rw [← String.length_utf8EncodeChar, List.drop_left] at ih hds
    exact congrArg (utf8EncodeChar c ++ ·) (ih hds)
  | case4 bytes hempty c hsome n herror ih =>
    rw [decodeUtf8, if_neg hempty, hsome] at h
    simp only [herror] at h
    cases h

/-- **Reading gives the text that the bytes encode**, and there is no other. -/
theorem decodeUtf8_eq_ok_iff {bytes : List UInt8} {cs : List Char} :
    decodeUtf8 bytes = .ok cs ↔ encodeUtf8 cs = bytes := by
  constructor
  · exact encodeUtf8_of_decodeUtf8
  · rintro rfl
    exact decodeUtf8_encodeUtf8 cs

/-- Where bytes encode no text, the characters at their front are told apart from what is no
character. -/
theorem exists_of_decodeUtf8_eq_error {bytes : List UInt8} {n : Nat}
    (h : decodeUtf8 bytes = .error n) : ∃ cs tail, bytes = encodeUtf8 cs ++ tail ∧
      (encodeUtf8 cs).length = n ∧ tail ≠ [] ∧ ∀ c, ¬ utf8EncodeChar c <+: tail := by
  induction bytes using decodeUtf8.induct generalizing n with
  | case1 bytes hempty =>
    rw [decodeUtf8, if_pos hempty] at h
    cases h
  | case2 bytes hempty hnone =>
    rw [decodeUtf8, if_neg hempty, hnone] at h
    cases h
    refine ⟨[], bytes, rfl, rfl, fun hnil => hempty (List.isEmpty_iff.mpr hnil), ?_⟩
    intro c hc
    rw [leadingChar?_eq_some_iff.mpr hc] at hnone
    cases hnone
  | case3 bytes hempty c hsome ds hds ih =>
    rw [decodeUtf8, if_neg hempty, hsome] at h
    simp only [hds] at h
    cases h
  | case4 bytes hempty c hsome m hm ih =>
    rw [decodeUtf8, if_neg hempty, hsome] at h
    simp only [hm] at h
    cases h
    obtain ⟨rest, rfl⟩ := leadingChar?_eq_some_iff.mp hsome
    rw [← String.length_utf8EncodeChar, List.drop_left] at ih hm
    obtain ⟨cs, tail, hrest, hlength, hne, hstop⟩ := ih hm
    have hbytes : encodeUtf8 (c :: cs) = utf8EncodeChar c ++ encodeUtf8 cs := rfl
    refine ⟨c :: cs, tail, ?_, ?_, hne, hstop⟩
    · rw [hbytes, List.append_assoc, ← hrest]
    · rw [hbytes, List.length_append, hlength, String.length_utf8EncodeChar]

/-! ## Order -/

theorem byte_cons_lt {a b : Nat} {as bs : List UInt8} (ha : a < 256) (hb : b < 256) :
    UInt8.ofNat a :: as < UInt8.ofNat b :: bs ↔ a < b ∨ a = b ∧ as < bs := by
  rw [List.cons_lt_cons_iff, UInt8.lt_iff_toNat_lt, ← UInt8.toNat_inj, UInt8.toNat_ofNat',
    UInt8.toNat_ofNat', Nat.mod_eq_of_lt ha, Nat.mod_eq_of_lt hb]

/-- The bytes of the character with a code, as many as the code needs. -/
inductive Encodes (code : Nat) : List UInt8 → Prop where
  | one (range : code < 0x80) : Encodes code [.ofNat code]
  | two (range : 0x80 ≤ code ∧ code < 0x800) :
      Encodes code [.ofNat (code / 64 + 0xc0), .ofNat (code % 64 + 0x80)]
  | three (range : 0x800 ≤ code ∧ code < 0x10000) :
      Encodes code [.ofNat (code / 64 / 64 + 0xe0), .ofNat (code / 64 % 64 + 0x80),
        .ofNat (code % 64 + 0x80)]
  | four (range : 0x10000 ≤ code ∧ code < 0x110000) :
      Encodes code [.ofNat (code / 64 / 64 / 64 + 0xf0), .ofNat (code / 64 / 64 % 64 + 0x80),
        .ofNat (code / 64 % 64 + 0x80), .ofNat (code % 64 + 0x80)]

theorem encodes_utf8EncodeChar (c : Char) : Encodes c.val.toNat (utf8EncodeChar c) := by
  have hmax : c.val.toNat < 0x110000 := by
    have hvalid := c.valid
    simp only [UInt32.isValidChar, Nat.isValidChar] at hvalid
    omega
  unfold utf8EncodeChar
  dsimp only
  split
  · exact .one (by omega)
  split
  · have hlead : c.val.toNat / 64 % 32 = c.val.toNat / 64 := by omega
    rw [hlead]
    exact .two (by omega)
  split
  · have hlead : c.val.toNat / 4096 % 16 = c.val.toNat / 64 / 64 := by omega
    rw [hlead]
    exact .three (by omega)
  · have hlead : c.val.toNat / 262144 % 8 = c.val.toNat / 64 / 64 / 64 := by omega
    have hnext : c.val.toNat / 4096 = c.val.toNat / 64 / 64 := by omega
    rw [hlead, hnext]
    exact .four (by omega)

/-- Where two codes differ, their bytes do, and the first that differ are in the order of the
codes, whatever follows. -/
theorem Encodes.append_lt {v w : Nat} {vs ws : List UInt8} (hv : Encodes v vs) (hw : Encodes w ws)
    (h : v < w) (as bs : List UInt8) : vs ++ as < ws ++ bs := by
  cases hv <;> cases hw
  all_goals simp only [List.cons_append, List.nil_append]
  all_goals repeat rw [byte_cons_lt (by omega) (by omega)]
  all_goals omega

theorem utf8EncodeChar_append_lt {c d : Char} (h : c < d) (as bs : List UInt8) :
    utf8EncodeChar c ++ as < utf8EncodeChar d ++ bs :=
  (encodes_utf8EncodeChar c).append_lt (encodes_utf8EncodeChar d) h as bs

theorem encodeUtf8_lt_of_lt {cs ds : List Char} (h : cs < ds) : encodeUtf8 cs < encodeUtf8 ds := by
  induction h with
  | @nil d ds =>
    show [] < utf8EncodeChar d ++ encodeUtf8 ds
    obtain ⟨b, bs, hb⟩ := List.exists_cons_of_ne_nil (String.utf8EncodeChar_ne_nil (c := d))
    rw [hb]
    exact List.nil_lt_cons ..
  | rel h => exact utf8EncodeChar_append_lt h ..
  | cons h ih => exact List.append_left_lt ih

/-- **Texts are in the order of their bytes.** -/
theorem encodeUtf8_lt_iff {cs ds : List Char} : encodeUtf8 cs < encodeUtf8 ds ↔ cs < ds := by
  refine ⟨fun h => ?_, encodeUtf8_lt_of_lt⟩
  by_cases hlt : cs < ds
  · exact hlt
  · rcases List.le_iff_lt_or_eq.mp (List.not_lt.mp hlt) with hgt | rfl
    · exact absurd h (List.lt_asymm (encodeUtf8_lt_of_lt hgt))
    · exact absurd h (List.lt_irrefl _)

end RecordQuery.Text
