import Mathlib.Data.List.Infix
import RecordQuery.Filter.Coercion

/-!
# Pattern matching

What a pattern of `LIKE … ESCAPE '\'` matches, and that the patterns of the
search operators match the texts they are meant for: whatever a client searches
for, it is searched for literally.
-/

namespace RecordQuery

namespace Text.LikePattern

/-- The pattern matches the text. A backslash makes the next character literal,
`%` stands for any run of characters, `_` for any one, and every other character
for itself. A backslash with nothing behind it matches nothing. -/
def accepts : List Char → List Char → Bool
  | [], text => text.isEmpty
  | '\\' :: c :: pattern, d :: text => d == c && accepts pattern text
  | '\\' :: _, _ => false
  | '%' :: pattern, text => text.tails.any (accepts pattern)
  | '_' :: pattern, _ :: text => accepts pattern text
  | '_' :: _, [] => false
  | c :: pattern, d :: text => d == c && accepts pattern text
  | _ :: _, [] => false

/-- The value stands at this place of the text. -/
def Place.Holds (place : Place) (value text : List Char) : Prop :=
  match place with
  | .start => value <+: text
  | .finish => value <:+ text
  | .anywhere => value <:+: text

/-! ## Parts of a pattern -/

theorem accepts_nil (text : List Char) : accepts [] text = true ↔ text = [] := by
  rw [accepts, List.isEmpty_iff]

/-- Any run of characters may stand before what the rest of the pattern matches. -/
theorem accepts_percent (pattern text : List Char) :
    accepts ('%' :: pattern) text = true ↔
      ∃ run rest, text = run ++ rest ∧ accepts pattern rest = true := by
  rw [accepts, List.any_eq_true]
  constructor
  · rintro ⟨rest, hrest, haccepts⟩
    obtain ⟨run, hrun⟩ := (List.mem_tails rest text).mp hrest
    exact ⟨run, rest, hrun.symm, haccepts⟩
  · rintro ⟨run, rest, rfl, haccepts⟩
    exact ⟨rest, (List.mem_tails rest _).mpr (List.suffix_append run rest), haccepts⟩

/-- What is left open at the end of a pattern matches whatever follows. -/
theorem accepts_percent_nil (text : List Char) : accepts ['%'] text = true := by
  rw [accepts_percent]
  exact ⟨text, [], (List.append_nil text).symm, rfl⟩

/-- A character that is made literal where it has to be matches itself alone. -/
theorem accepts_escape_cons (c : Char) (cs pattern text : List Char) :
    accepts (escape (c :: cs) ++ pattern) text = true ↔
      ∃ rest, text = c :: rest ∧ accepts (escape cs ++ pattern) rest = true := by
  have hone : accepts (escape (c :: cs) ++ pattern) text = true ↔
      ∃ d rest, text = d :: rest ∧ d = c ∧ accepts (escape cs ++ pattern) rest = true := by
    rw [escape_cons]
    by_cases h : isSpecial c = true
    · rw [if_pos h]
      cases text with
      | nil => simp [accepts]
      | cons d text => simp [accepts]
    · rw [if_neg h]
      simp only [isSpecial, Bool.or_eq_true, beq_iff_eq, not_or] at h
      cases text with
      | nil => simp [accepts, h]
      | cons d text => simp [accepts, h]
  rw [hone]
  constructor
  · rintro ⟨d, rest, rfl, rfl, haccepts⟩
    exact ⟨rest, rfl, haccepts⟩
  · rintro ⟨rest, rfl, haccepts⟩
    exact ⟨c, rest, rfl, rfl, haccepts⟩

/-- An escaped value matches itself, before whatever the rest of the pattern matches. -/
theorem accepts_escape_append (value pattern text : List Char) :
    accepts (escape value ++ pattern) text = true ↔
      ∃ rest, text = value ++ rest ∧ accepts pattern rest = true := by
  induction value generalizing text with
  | nil => simp
  | cons c cs ih =>
    rw [accepts_escape_cons]
    constructor
    · rintro ⟨rest, rfl, haccepts⟩
      obtain ⟨rest', rfl, haccepts'⟩ := (ih rest).mp haccepts
      exact ⟨rest', rfl, haccepts'⟩
    · rintro ⟨rest, rfl, haccepts⟩
      exact ⟨cs ++ rest, rfl, (ih _).mpr ⟨rest, rfl, haccepts⟩⟩

/-! ## Whole patterns -/

theorem accepts_escape (value text : List Char) :
    accepts (escape value) text = true ↔ text = value := by
  have h := accepts_escape_append value [] text
  rw [List.append_nil] at h
  rw [h]
  simp only [accepts_nil]
  constructor
  · rintro ⟨rest, rfl, rfl⟩
    exact List.append_nil value
  · rintro rfl
    exact ⟨[], (List.append_nil _).symm, rfl⟩

/-- The value is the beginning of what an open pattern matches. -/
theorem accepts_escape_percent (value text : List Char) :
    accepts (escape value ++ ['%']) text = true ↔ value <+: text := by
  rw [accepts_escape_append]
  constructor
  · rintro ⟨rest, rfl, -⟩
    exact List.prefix_append value rest
  · rintro ⟨rest, rfl⟩
    exact ⟨rest, rfl, accepts_percent_nil rest⟩

/-- The pattern of a value matches the texts that have the value at its place. -/
theorem accepts_ofValue (place : Place) (value text : List Char) :
    accepts (ofValue place value) text = true ↔ place.Holds value text := by
  cases place with
  | start => exact accepts_escape_percent value text
  | finish =>
    rw [ofValue, accepts_percent, Place.Holds]
    simp only [accepts_escape]
    constructor
    · rintro ⟨run, rest, rfl, rfl⟩
      exact List.suffix_append run rest
    · rintro ⟨run, rfl⟩
      exact ⟨run, value, rfl, rfl⟩
  | anywhere =>
    rw [ofValue, accepts_percent, Place.Holds]
    simp only [accepts_escape_percent]
    constructor
    · rintro ⟨run, rest, rfl, hprefix⟩
      exact hprefix.isInfix.trans (List.suffix_append run rest).isInfix
    · rintro ⟨run, rest, rfl⟩
      exact ⟨run, value ++ rest, List.append_assoc .., List.prefix_append value rest⟩

end Text.LikePattern

open Text

/-- **Searches mean what they say**: what a search operator binds for a string is
a pattern, and the pattern matches a text if and only if the text has the string
at the place that the operator asks for. -/
theorem Field.accepts_of_coercePattern {f : Field} {l : Literal} (place : LikePattern.Place)
    (hf : f.type = .string) (hl : l.kind = .string ∨ l.kind = .timestamp) :
    ∃ pattern, f.coercePattern place l = .ok (.string pattern) ∧
      ∀ text : String, LikePattern.accepts pattern.toList text.toList = true ↔
        place.Holds l.text text.toList := by
  have hdatum : l.datum? f.type = some (.string (String.ofList l.text)) := by
    rw [hf]
    rcases hl with hl | hl <;> simp [Literal.datum?, hl]
  refine ⟨String.ofList (LikePattern.ofValue place l.text), ?_, fun text => ?_⟩
  · simp [coercePattern, coerce, hdatum]
  · rw [String.toList_ofList]
    exact LikePattern.accepts_ofValue place l.text text.toList

/-- A value of nothing but special characters, with a backslash at its end. -/
theorem Field.accepts_of_coercePattern_special :
    let f : Field := ⟨"name", "name", .string, .allFor .string, false⟩
    let l : Literal := ⟨.string, "%_\\".toList, 0⟩
    f.type = .string ∧ (l.kind = .string ∨ l.kind = .timestamp) ∧
      ∃ pattern, f.coercePattern .finish l = .ok (.string pattern) ∧
        ∀ text : String, LikePattern.accepts pattern.toList text.toList = true ↔
          "%_\\".toList <:+ text.toList := by
  intro f l
  have hl : l.kind = .string ∨ l.kind = .timestamp := .inl rfl
  exact ⟨rfl, hl, accepts_of_coercePattern .finish rfl hl⟩

end RecordQuery
