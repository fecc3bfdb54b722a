import Mathlib.Computability.Language
import RecordQuery.Text.Ascii

/-!
# Patterns

Regular expressions in which nothing is repeated without bound. A pattern has a language, and
it can be searched for at the front of a text. The search tries the preferred side of a
choice first, and goes back for the other side where what comes behind does not match. It
finds all that the language has at the front of the text; which match it finds first
depends on how the pattern is written.
-/

namespace RecordQuery

open Text

/-- A regular expression. Of a choice the preferred side is tried first. -/
inductive Pattern where
  | empty
  | one (accepts : Char → Bool)
  | seq (front back : Pattern)
  | choice (preferred other : Pattern)

namespace Pattern

/-- The texts that match as a whole. -/
def language : Pattern → Language Char
  | empty => 1
  | one accepts => {cs | ∃ c, accepts c = true ∧ cs = [c]}
  | seq p q => p.language * q.language
  | choice p q => p.language + q.language

/-- The lengths in bytes of what matches at the front of a text. -/
def lengths (p : Pattern) (cs : List Char) : Set Nat :=
  {n | ∃ s ∈ p.language, s <+: cs ∧ byteLength s = n}

/-- What each match at the front of a text leaves, in the order in which a search finds them. -/
def remainders : Pattern → List Char → List (List Char)
  | empty, cs => [cs]
  | one _, [] => []
  | one accepts, c :: cs => if accepts c then [cs] else []
  | seq p q, cs => (p.remainders cs).flatMap q.remainders
  | choice p q, cs => p.remainders cs ++ q.remainders cs

/-- What the match leaves that is found first. -/
def first (p : Pattern) (cs : List Char) : Option (List Char) :=
  (p.remainders cs).head?

/-- The character `c`. -/
def char (c : Char) : Pattern :=
  one (· == c)

/-- `p`, or nothing if there is no `p`. -/
def optional (p : Pattern) : Pattern :=
  choice p empty

/-- `p`, `n` times. -/
def times : Nat → Pattern → Pattern
  | 0, _ => empty
  | n + 1, p => p.seq (times n p)

/-- `p`, as often as there is one and `n` times at most. -/
def atMost : Nat → Pattern → Pattern
  | 0, _ => empty
  | n + 1, p => optional (p.seq (atMost n p))

variable {p q : Pattern} {accepts : Char → Bool} {c : Char} {s cs rest : List Char}

/-! ## The language -/

theorem mem_empty : s ∈ empty.language ↔ s = [] :=
  Language.mem_one s

theorem mem_one : s ∈ (one accepts).language ↔ ∃ c, accepts c = true ∧ s = [c] :=
  Iff.rfl

theorem mem_seq : s ∈ (p.seq q).language ↔ ∃ a ∈ p.language, ∃ b ∈ q.language, a ++ b = s :=
  Language.mem_mul

theorem mem_choice : s ∈ (choice p q).language ↔ s ∈ p.language ∨ s ∈ q.language :=
  Language.mem_add ..

theorem mem_char : s ∈ (char c).language ↔ s = [c] := by
  simp [char, mem_one]

theorem mem_optional : s ∈ (optional p).language ↔ s ∈ p.language ∨ s = [] := by
  rw [optional, mem_choice, mem_empty]

/-- Where values of a type spell what matches, values that may be absent spell what may be
left out. -/
theorem mem_optional_iff {α : Type} {good : α → Prop} {spell : α → List Char}
    (h : ∀ s, s ∈ p.language ↔ ∃ x, good x ∧ spell x = s) :
    s ∈ (optional p).language ↔ ∃ o : Option α, (∀ x ∈ o, good x) ∧ (o.map spell).getD [] = s := by
  rw [mem_optional, h]
  constructor
  · rintro (⟨x, hx, rfl⟩ | rfl)
    · refine ⟨some x, ?_, rfl⟩
      rintro _ ⟨⟩
      exact hx
    · refine ⟨none, ?_, rfl⟩
      rintro _ ⟨⟩
  · rintro ⟨o, ho, rfl⟩
    cases o with
    | none => exact .inr rfl
    | some x => exact .inl ⟨x, ho x rfl, rfl⟩

/-! ## Searching finds the language -/

/-- **A search finds every match at the front**, and nothing else. -/
theorem mem_remainders_iff : rest ∈ p.remainders cs ↔ ∃ s ∈ p.language, s ++ rest = cs := by
  induction p generalizing cs rest with
  | empty => simp [remainders, mem_empty]
  | one accepts =>
    simp only [mem_one]
    cases cs with
    | nil => simp [remainders]
    | cons c cs =>
      by_cases hc : accepts c = true
      · simp [remainders, hc]
      · simp [remainders, hc]
  | seq p q ihp ihq =>
    simp only [remainders, List.mem_flatMap, mem_seq, ihp, ihq]
    constructor
    · rintro ⟨_, ⟨a, ha, rfl⟩, b, hb, rfl⟩
      exact ⟨a ++ b, ⟨a, ha, b, hb, rfl⟩, List.append_assoc ..⟩
    · rintro ⟨_, ⟨a, ha, b, hb, rfl⟩, rfl⟩
      exact ⟨b ++ rest, ⟨a, ha, (List.append_assoc ..).symm⟩, b, hb, rfl⟩
  | choice p q ihp ihq =>
    simp only [remainders, List.mem_append, mem_choice, ihp, ihq, or_and_right, exists_or]

/-- A text matches as a whole if and only if some match leaves nothing of it. -/
theorem mem_language_iff : s ∈ p.language ↔ [] ∈ p.remainders s := by
  simp [mem_remainders_iff]

/-- Something is found if and only if the text begins with a match. -/
theorem exists_first_iff : (∃ rest, p.first cs = some rest) ↔ ∃ s ∈ p.language, s <+: cs := by
  constructor
  · rintro ⟨rest, h⟩
    obtain ⟨s, hs, happend⟩ := mem_remainders_iff.mp (List.mem_of_mem_head? h)
    exact ⟨s, hs, rest, happend⟩
  · rintro ⟨s, hs, rest, happend⟩
    have hmem : rest ∈ p.remainders cs := mem_remainders_iff.mpr ⟨s, hs, happend⟩
    exact ⟨_, List.head?_eq_some_head (List.ne_nil_of_mem hmem)⟩

/-! ## What is found first -/

theorem first_choice : (choice p q).first cs = (p.first cs).or (q.first cs) :=
  List.head?_append

theorem first_optional : (optional p).first cs = some ((p.first cs).getD cs) := by
  rw [optional, first_choice]
  cases p.first cs with
  | none => rfl
  | some rest => rfl

theorem remainders_one_seq_cons :
    ((one accepts).seq p).remainders (c :: cs) = if accepts c then p.remainders cs else [] := by
  by_cases hc : accepts c = true
  · simp [remainders, hc]
  · simp [remainders, hc]

theorem first_one_seq_cons :
    ((one accepts).seq p).first (c :: cs) = if accepts c then p.first cs else none := by
  rw [first, remainders_one_seq_cons, first, apply_ite List.head?, List.head?_nil]

/-- There is nothing to go back for where the front matches in one way at most. -/
theorem first_seq_of_remainders {o : Option (List Char)} (h : p.remainders cs = o.toList) :
    (p.seq q).first cs = o.bind q.first := by
  rw [first, remainders, h]
  cases o with
  | none => rfl
  | some rest =>
    rw [Option.toList_some, List.flatMap_singleton]
    rfl

/-- There is no need to go back where the back may be left out. -/
theorem first_seq_optional :
    (p.seq (optional q)).first cs = (p.first cs).map fun rest => (q.first rest).getD rest := by
  rw [first, remainders, first]
  cases p.remainders cs with
  | nil => rfl
  | cons rest rests =>
    -- the back matches behind the first match of the front, if only as nothing
    have hfirst : ((optional q).remainders rest).head? = some ((q.first rest).getD rest) :=
      first_optional
    rw [List.flatMap_cons, List.head?_append, hfirst]
    rfl

end Pattern

end RecordQuery
