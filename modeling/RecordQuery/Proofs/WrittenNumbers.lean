import Mathlib.Data.List.Induction
import Mathlib.Data.Nat.Digits.Defs
import RecordQuery.Proofs.ReadTokens

/-!
# Numbers as they are written

A number in a filter has as many digits as its writer likes. A field of integers takes it if it
has no point and fits 64 bits, a field of decimals if its fraction and its digits fit, and no other
field takes it. What is taken is the number that is written, with every fraction digit; what does
not fit is neither rounded nor cut off, it is no value of the field.
-/

namespace RecordQuery

open Grammar Text

/-! ## Positional notation -/

/-- The number that ASCII digits denote in base ten. The first of them counts most. -/
def Text.positionalValue (ds : List Char) : Nat :=
  Nat.ofDigits 10 (ds.reverse.map fun d => d.toNat - '0'.toNat)

theorem Text.numeralValue_eq_positionalValue (ds : List Char) :
    numeralValue ds = positionalValue ds := by
  induction ds using List.reverseRecOn with
  | nil => rfl
  | append_singleton ds d ih =>
    have hzero : '0'.toNat = 48 := rfl
    rw [numeralValue_concat, ih]
    simp only [positionalValue, List.reverse_append, List.reverse_singleton, List.singleton_append,
      List.map_cons, Nat.ofDigits_cons, digitValue, hzero]
    omega

/-- What is not all digits is no natural number. -/
theorem Text.natural?_eq_none {cs : List Char} {c : Char} (hmem : c ∈ cs)
    (hc : c.isDigit = false) : natural? cs = none := by
  have hall : cs.all Char.isDigit = false := by
    rw [List.all_eq_false]
    exact ⟨c, hmem, by simp [hc]⟩
  simp [natural?, hall]

/-! ## What is written -/

/-- A number: a sign perhaps, digits, and perhaps a point with digits behind it. -/
structure WrittenNumber where
  negative : Bool
  whole : List Char
  /-- Empty if no point is written. -/
  fraction : List Char
  whole_ne_nil : whole ≠ []
  digits_whole : Digits whole
  digits_fraction : Digits fraction

namespace WrittenNumber

def spell (w : WrittenNumber) : List Char :=
  spellNumber w.negative w.whole w.fraction

/-- The literal that the number is, at a byte of a filter. -/
def literal (w : WrittenNumber) (position : Nat) : Literal :=
  ⟨.number, w.spell, position⟩

/-- The number that is left without the sign and the point. -/
def coefficient (w : WrittenNumber) : Nat :=
  positionalValue (w.whole ++ w.fraction)

/-- The number that is left without the point. -/
def signed (w : WrittenNumber) : Int :=
  if w.negative then -(w.coefficient : Int) else w.coefficient

/-- The value of the type is the number that is written, and has its fraction digits. -/
inductive Denotes (w : WrittenNumber) : FieldType → Datum → Prop where
  | integer {n : Int64} (noPoint : w.fraction = []) (value : n.toInt = w.signed) :
      Denotes w .integer (.integer n)
  /-- Zero has no sign. -/
  | decimal {d : Decimal} (coefficient : d.coefficient = w.coefficient)
      (scale : d.scale = w.fraction.length)
      (sign : d.negative = true ↔ w.negative = true ∧ w.coefficient ≠ 0) :
      Denotes w .decimal (.decimal d)

/-- There is room for the number in values of the type. -/
def Fits (w : WrittenNumber) : FieldType → Prop
  | .integer => w.fraction = [] ∧ -2 ^ 63 ≤ w.signed ∧ w.signed < 2 ^ 63
  | .decimal => w.fraction.length ≤ 28 ∧ w.coefficient < 2 ^ 96
  | _ => False

variable {w : WrittenNumber}

/-! ## Integers -/

theorem natural?_unsigned (w : WrittenNumber) :
    natural? (spellNumber false w.whole w.fraction) =
      if w.fraction = [] then some w.coefficient else none := by
  have hspelled : spellNumber false w.whole w.fraction =
      w.whole ++ if w.fraction = [] then [] else '.' :: w.fraction := rfl
  rw [hspelled]
  by_cases hempty : w.fraction = []
  · rw [if_pos hempty, if_pos hempty, List.append_nil,
      natural?_of_digits w.whole_ne_nil w.digits_whole, coefficient, hempty, List.append_nil,
      numeralValue_eq_positionalValue]
  · rw [if_neg hempty, if_neg hempty]
    have hpoint : '.' ∈ w.whole ++ '.' :: w.fraction := by simp
    exact natural?_eq_none hpoint rfl

theorem integer?_spell (w : WrittenNumber) :
    integer? w.spell = if w.fraction = [] then some w.signed else none := by
  rw [spell, integer?_spellNumber_eq _ w.whole_ne_nil w.digits_whole, natural?_unsigned]
  by_cases hempty : w.fraction = []
  · rw [if_pos hempty, if_pos hempty]
    rfl
  · rw [if_neg hempty, if_neg hempty]
    rfl

/-- **An integer is read if and only if it fits 64 bits**, and then it is the one that is
written. -/
theorem readInt64?_spell {n : Int64} :
    readInt64? w.spell = some n ↔ w.fraction = [] ∧ n.toInt = w.signed := by
  have hmin : Int64.minValue.toInt = -2 ^ 63 := by decide
  have hmax : Int64.maxValue.toInt = 2 ^ 63 - 1 := by decide
  rw [readInt64?, integer?_spell]
  by_cases hempty : w.fraction = []
  · simp only [hempty, if_true, true_and, hmin, hmax]
    constructor
    · intro h
      split at h
      · rename_i hrange
        cases h
        exact Int64.toInt_ofInt_of_le hrange.1 (by omega)
      · cases h
    · intro h
      have hlow := n.le_toInt
      have hhigh := n.toInt_lt
      rw [← h, if_pos ⟨hlow, by omega⟩, Int64.ofInt_toInt]
  · simp [hempty]

/-! ## Decimals -/

/-- **A decimal is read if and only if its digits fit**, and then it has them all. -/
theorem decimal_read?_spell {d : Decimal} : Decimal.read? w.spell = some d ↔
    d.coefficient = w.coefficient ∧ d.scale = w.fraction.length ∧
      (d.negative = true ↔ w.negative = true ∧ w.coefficient ≠ 0) := by
  have hne : w.whole ++ w.fraction ≠ [] := List.append_ne_nil_of_left_ne_nil w.whole_ne_nil _
  have hdigits : Digits (w.whole ++ w.fraction) :=
    List.forall_mem_append.mpr ⟨w.digits_whole, w.digits_fraction⟩
  have hnatural : natural? (w.whole ++ w.fraction) = some w.coefficient := by
    rw [natural?_of_digits hne hdigits, numeralValue_eq_positionalValue]
    rfl
  have hsign : d.negative = (w.negative && w.coefficient != 0) ↔
      (d.negative = true ↔ w.negative = true ∧ w.coefficient ≠ 0) := by
    rw [Bool.eq_iff_iff, Bool.and_eq_true, bne_iff_ne]
  rw [spell, Decimal.read?_spellNumber _ w.whole_ne_nil w.digits_whole w.digits_fraction,
    Decimal.ofDigits?_eq_some_iff hnatural, hsign]

/-! ## Values -/

/-- The literal denotes what is written, for fields of any type. -/
theorem datum?_literal {type : FieldType} {v : Datum} (position : Nat) :
    (w.literal position).datum? type = some v ↔ w.Denotes type v := by
  constructor
  · intro h
    cases type with
    | integer =>
      obtain ⟨n, hn, rfl⟩ := Option.map_eq_some_iff.mp h
      obtain ⟨hempty, hvalue⟩ := readInt64?_spell.mp hn
      exact .integer hempty hvalue
    | decimal =>
      obtain ⟨d, hd, rfl⟩ := Option.map_eq_some_iff.mp h
      obtain ⟨hcoefficient, hscale, hsign⟩ := decimal_read?_spell.mp hd
      exact .decimal hcoefficient hscale hsign
    | string | timestamp | boolean => cases h
  · intro h
    cases h with
    | integer noPoint value =>
      exact congrArg (Option.map Datum.integer) (readInt64?_spell.mpr ⟨noPoint, value⟩)
    | decimal coefficient scale sign =>
      exact congrArg (Option.map Datum.decimal)
        (decimal_read?_spell.mpr ⟨coefficient, scale, sign⟩)

/-- **A value is written if and only if there is room for it.** -/
theorem exists_denotes_iff {type : FieldType} : (∃ v, w.Denotes type v) ↔ w.Fits type := by
  constructor
  · rintro ⟨v, h⟩
    cases h with
    | @integer n noPoint value => exact ⟨noPoint, value ▸ n.le_toInt, value ▸ n.toInt_lt⟩
    | @decimal d coefficient scale sign =>
      exact ⟨scale ▸ d.scale_le, coefficient ▸ d.coefficient_lt⟩
  · intro h
    cases type with
    | integer =>
      obtain ⟨noPoint, hlow, hhigh⟩ := h
      exact ⟨_, .integer noPoint (Int64.toInt_ofInt_of_le hlow hhigh)⟩
    | decimal =>
      obtain ⟨hscale, hcoefficient⟩ := h
      exact ⟨_, .decimal (d := ⟨w.negative && w.coefficient != 0, w.coefficient,
        w.fraction.length, hcoefficient, hscale, by intro hzero; simp [hzero]⟩) rfl rfl (by simp)⟩
    | string | timestamp | boolean => cases h

end WrittenNumber

/-! ## Number tokens -/

namespace LeadingToken

/-- **Every number token is a number as it is written.** -/
theorem exists_of_read_number {c : Char} {cs : List Char} {t : LeadingToken}
    (h : read c cs = .ok t) (hkind : t.kind = .number) :
    ∃ w : WrittenNumber, t.lexeme = w.spell := by
  obtain ⟨negative, whole, fraction, hne, hwhole, hfraction, hform⟩ :=
    (wellFormed_of_read h).exists_number hkind
  exact ⟨⟨negative, whole, fraction, hne, hwhole, hfraction⟩, congrArg TokenForm.lexeme hform⟩

end LeadingToken

/-! ## Coercion -/

/-- No other literal is a number. -/
theorem Literal.datum?_eq_none {l : Literal} {type : FieldType}
    (htype : type = .integer ∨ type = .decimal) (hkind : l.kind ≠ .number) :
    l.datum? type = none := by
  obtain ⟨kind, text, position⟩ := l
  rcases htype with rfl | rfl
  all_goals
    cases kind with
    | number => exact absurd rfl hkind
    | string | timestamp | boolean => rfl

namespace WrittenNumber

/-- The parser takes the token for the number that it is. -/
theorem literal?_eq_some {t : Token} (w : WrittenNumber) (hkind : t.kind = .number)
    (hlexeme : t.lexeme = w.spell) : t.literal? = some (w.literal t.position) := by
  have hquote : '\'' ∉ w.spell :=
    Datum.quote_not_mem_spellNumber w.negative w.digits_whole w.digits_fraction
  have hvalue : Value t ⟨.number, Literal.mergeQuotes t.lexeme, t.position⟩ := .number hkind
  rw [hlexeme, Literal.mergeQuotes_of_not_mem hquote] at hvalue
  exact literal?_eq_some_iff.mpr hvalue

theorem tokenize_spell (w : WrittenNumber) :
    tokenize (String.ofList w.spell) = .ok [⟨.number, w.spell, false, 0⟩] := by
  have htoken : Lexed.Consists 0 w.spell _ := LeadingToken.consists_spellNumber w.negative
    w.whole_ne_nil w.digits_whole w.digits_fraction
  rw [tokenize, Lexed.ofText, String.toList_ofList, htoken]
  rfl

end WrittenNumber

/-- **Numbers never lose value.** The number tokens are the numbers as they are written; a field
makes of each the value that is written, and has an error for it where there is no room for the
value; and for a field of numbers no other literal has a value. -/
theorem Field.coerce_number (f : Field) :
    (∀ text : String, ∀ t ∈ (Lexed.ofText text).tokens, t.kind = .number →
      ∃ w : WrittenNumber, t.lexeme = w.spell ∧ t.literal? = some (w.literal t.position)) ∧
    (∀ w : WrittenNumber,
      tokenize (String.ofList w.spell) = .ok [⟨.number, w.spell, false, 0⟩]) ∧
    (∀ (w : WrittenNumber) (position : Nat),
      (∀ v, f.coerce (w.literal position) = .ok v ↔ w.Denotes f.type v) ∧
      ((∃ v, w.Denotes f.type v) ↔ w.Fits f.type) ∧
      (¬ w.Fits f.type → f.coerce (w.literal position) =
        .error (.typeMismatch f.name (String.ofList w.spell) f.type))) ∧
    (f.type = .integer ∨ f.type = .decimal → ∀ l : Literal, l.kind ≠ .number →
      f.coerce l = .error (.typeMismatch f.name (String.ofList l.display) f.type)) := by
  refine ⟨?_, WrittenNumber.tokenize_spell, ?_, ?_⟩
  · intro text t ht hkind
    obtain ⟨before, c, rest, lead, -, hread, rfl⟩ := Lexed.exists_read 0 text.toList t ht
    obtain ⟨w, hw⟩ := LeadingToken.exists_of_read_number hread hkind
    exact ⟨w, hw, w.literal?_eq_some hkind hw⟩
  · intro w position
    have hdenotes (v : Datum) : f.coerce (w.literal position) = .ok v ↔ w.Denotes f.type v :=
      coerce_eq_ok_iff.trans (WrittenNumber.datum?_literal position)
    refine ⟨hdenotes, WrittenNumber.exists_denotes_iff, fun hfits => ?_⟩
    cases hdatum : (w.literal position).datum? f.type with
    | none => exact coerce_of_datum?_eq_none hdatum
    | some v =>
      have hv := (WrittenNumber.datum?_literal position).mp hdatum
      exact absurd (WrittenNumber.exists_denotes_iff.mp ⟨v, hv⟩) hfits
  · intro htype l hkind
    exact coerce_of_datum?_eq_none (Literal.datum?_eq_none htype hkind)

/-- The least integer of 64 bits behind zeros and the first one that is too great; a zero with as
many fraction digits as there may be, the first coefficient that is too great, and a string. -/
theorem Field.coerce_number_edges :
    let stock : Field := ⟨"stock", "stock", .integer, .allFor .integer, false⟩
    let price : Field := ⟨"price", "price", .decimal, .allFor .decimal, false⟩
    let token : Token := ⟨.number, "-007.50".toList, false, 7⟩
    let number (negative : Bool) (ds fs : List Char) (h : ds ≠ [])
        (hds : ds.all Char.isDigit = true) (hfs : fs.all Char.isDigit = true) : WrittenNumber :=
      ⟨negative, ds, fs, h, List.all_eq_true.mp hds, List.all_eq_true.mp hfs⟩
    let least := number true "009223372036854775808".toList [] (by decide) rfl rfl
    let above := number false "9223372036854775808".toList [] (by decide) rfl rfl
    let zero := number true "00".toList (List.replicate 28 '0') (by decide) rfl rfl
    let wide := number false "7".toList "9228162514264337593543950336".toList (by decide) rfl rfl
    (token ∈ (Lexed.ofText "price>=-007.50").tokens ∧
      ∃ w : WrittenNumber, token.lexeme = w.spell ∧ token.literal? = some (w.literal 7)) ∧
    stock.coerce (least.literal 8) = .ok (.integer Int64.minValue) ∧
    stock.coerce (above.literal 8) =
      .error (.typeMismatch "stock" "9223372036854775808" .integer) ∧
    price.coerce (zero.literal 8) =
      .ok (.decimal ⟨false, 0, 28, by decide, by decide, fun _ => rfl⟩) ∧
    price.coerce (wide.literal 8) =
      .error (.typeMismatch "price" "7.9228162514264337593543950336" .decimal) ∧
    price.coerce ⟨.string, "1".toList, 8⟩ = .error (.typeMismatch "price" "'1'" .decimal) := by
  intro stock price token number least above zero wide
  have htoken : token ∈ (Lexed.ofText "price>=-007.50").tokens := by decide +kernel
  obtain ⟨hlexemes, -, hstock, -⟩ := Field.coerce_number stock
  obtain ⟨-, -, hprice, hkinds⟩ := Field.coerce_number price
  refine ⟨⟨htoken, hlexemes _ token htoken rfl⟩, ?_, ?_, ?_, ?_, ?_⟩
  · exact ((hstock least 8).1 _).mpr (.integer rfl (by decide +kernel))
  · exact (hstock above 8).2.2 fun h => absurd h.2.2 (by decide +kernel)
  · exact ((hprice zero 8).1 _).mpr (.decimal (by decide +kernel) rfl (by decide +kernel))
  · exact (hprice wide 8).2.2 fun h => absurd h.2 (by decide +kernel)
  · exact hkinds (.inr rfl) _ (by decide)

end RecordQuery
