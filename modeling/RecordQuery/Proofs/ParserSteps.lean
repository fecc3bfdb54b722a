import RecordQuery.Proofs.Grammar
import RecordQuery.Proofs.Outcome

/-!
# Steps of the parser

What each token does that the parser takes. A step has an expectation that the token meets and,
where something is bounded, room within the limits; it changes what is expected next, and seldom
more. All that is said of runs goes back to this.
-/

namespace RecordQuery.Parser

open Grammar Outcome Text

variable {limits : Limits} {s s' : State} {t : Token}

theorem literalFor_eq_ok_iff {op : Operator} {l : Literal} :
    literalFor op t = .ok l ↔ Value t l := by
  rw [← literal?_eq_some_iff, literalFor]
  cases t.literal? with
  | none => simp [fail]
  | some l => simp

/-! ## Steps that the grammar prescribes -/

theorem step_leftParen (hs : s.expecting = .term) (ht : t.kind = .leftParen)
    (hd : s.groups.length < limits.depth) :
    step limits s t =
      .ok { s with pending := .none, groups := ⟨t.position, s.pending⟩ :: s.groups } := by
  simp [step, stepTerm, hs, ht, Nat.not_le.mpr hd]

theorem step_name (hs : s.expecting = .term) (ht : t.kind = .name)
    (hp : s.predicates < limits.predicates) :
    step limits s t =
      .ok { s with expecting := .operator t, predicates := s.predicates + 1 } := by
  simp [step, stepTerm, hs, ht, Nat.not_le.mpr hp]

theorem step_operator {field : Token} {op : Operator} (hs : s.expecting = .operator field)
    (ht : t.kind = .operator op) :
    step limits s t = .ok { s with expecting := afterOperator field op } := by
  simp [step, hs, ht]

theorem step_and (limits : Limits) {e : Expr Predicate} (hs : s.expecting = .connective e)
    (ht : t.kind = .and) :
    step limits s t =
      .ok { s with
        expecting := .term
        pending := ⟨s.pending.alternatives, some (s.pending.conjoin e)⟩ } := by
  simp [step, stepConnective, hs, ht]

theorem step_or (limits : Limits) {e : Expr Predicate} (hs : s.expecting = .connective e)
    (ht : t.kind = .or) :
    step limits s t =
      .ok { s with expecting := .term, pending := ⟨some (s.pending.close e), none⟩ } := by
  simp [step, stepConnective, hs, ht]

theorem step_rightParen (limits : Limits) {e : Expr Predicate} {g : Group} {gs : List Group}
    (hs : s.expecting = .connective e) (ht : t.kind = .rightParen) (hg : s.groups = g :: gs) :
    step limits s t =
      .ok { s with
        expecting := .connective (s.pending.close e)
        pending := g.outside
        groups := gs } := by
  simp [step, stepConnective, hs, ht, hg]

theorem step_compared {field : Token} {c : Comparison} {l : Literal}
    (hs : s.expecting = .compared field c) (ht : Value t l) :
    step limits s t =
      .ok { s with expecting := .connective (predicate field (.compare c l)) } := by
  simp [step, hs, literalFor_eq_ok_iff.mpr ht, bind, Except.bind, pure, Except.pure]

theorem step_matched {field : Token} {place : LikePattern.Place} {l : Literal}
    (hs : s.expecting = .matched field place) (ht : Value t l) :
    step limits s t =
      .ok { s with expecting := .connective (predicate field (.pattern place l)) } := by
  simp [step, hs, literalFor_eq_ok_iff.mpr ht, bind, Except.bind, pure, Except.pure]

theorem step_singleValue {field : Token} {l : Literal} (hs : s.expecting = .values field)
    (ht : Value t l) :
    step limits s t = .ok { s with expecting := .connective (predicate field (.isIn [l])) } := by
  have hk : t.kind ≠ .leftParen := by
    cases ht with
    | string kind | number kind | timestamp kind | boolean kind => simp [kind]
  simp [step, hs, hk, literalFor_eq_ok_iff.mpr ht, bind, Except.bind, pure, Except.pure]

theorem step_opensList {field : Token} (hs : s.expecting = .values field)
    (ht : t.kind = .leftParen) :
    step limits s t = .ok { s with expecting := .listValue field t.position [] } := by
  simp [step, hs, ht]

theorem step_listValue {field : Token} {opened : Nat} {read : List Literal} {l : Literal}
    (hs : s.expecting = .listValue field opened read) (ht : Value t l)
    (hl : read.length < limits.listValues) :
    step limits s t = .ok { s with expecting := .listEnd field opened (read ++ [l]) } := by
  simp [step, hs, literalFor_eq_ok_iff.mpr ht, Nat.not_le.mpr hl, bind, Except.bind, pure, Except.pure]

theorem step_comma {field : Token} {opened : Nat} {read : List Literal}
    (hs : s.expecting = .listEnd field opened read) (ht : t.kind = .comma) :
    step limits s t = .ok { s with expecting := .listValue field opened read } := by
  simp [step, hs, ht]

theorem step_closesList {field : Token} {opened : Nat} {read : List Literal}
    (hs : s.expecting = .listEnd field opened read) (ht : t.kind = .rightParen) :
    step limits s t = .ok { s with expecting := .connective (predicate field (.isIn read)) } := by
  simp [step, hs, ht]

/-! ## All steps -/

/-- `Takes limits s t s'`: from the state `s`, the token takes the parser to `s'`. -/
inductive Takes (limits : Limits) (s : State) (t : Token) : State → Prop where
  | opens (expects : s.expecting = .term) (paren : t.kind = .leftParen)
      (room : s.groups.length < limits.depth) :
      Takes limits s t
        { s with pending := .none, groups := ⟨t.position, s.pending⟩ :: s.groups }
  | names (expects : s.expecting = .term) (name : t.kind = .name)
      (room : s.predicates < limits.predicates) :
      Takes limits s t { s with expecting := .operator t, predicates := s.predicates + 1 }
  | operator {field : Token} {op : Operator} (expects : s.expecting = .operator field)
      (kind : t.kind = .operator op) :
      Takes limits s t { s with expecting := afterOperator field op }
  | compared {field : Token} {c : Comparison} {l : Literal}
      (expects : s.expecting = .compared field c) (value : Value t l) :
      Takes limits s t { s with expecting := .connective (predicate field (.compare c l)) }
  | matched {field : Token} {place : LikePattern.Place} {l : Literal}
      (expects : s.expecting = .matched field place) (value : Value t l) :
      Takes limits s t { s with expecting := .connective (predicate field (.pattern place l)) }
  | singleValue {field : Token} {l : Literal} (expects : s.expecting = .values field)
      (value : Value t l) :
      Takes limits s t { s with expecting := .connective (predicate field (.isIn [l])) }
  | opensList {field : Token} (expects : s.expecting = .values field)
      (paren : t.kind = .leftParen) :
      Takes limits s t { s with expecting := .listValue field t.position [] }
  | listValue {field : Token} {opened : Nat} {read : List Literal} {l : Literal}
      (expects : s.expecting = .listValue field opened read) (value : Value t l)
      (room : read.length < limits.listValues) :
      Takes limits s t { s with expecting := .listEnd field opened (read ++ [l]) }
  | comma {field : Token} {opened : Nat} {read : List Literal}
      (expects : s.expecting = .listEnd field opened read) (comma : t.kind = .comma) :
      Takes limits s t { s with expecting := .listValue field opened read }
  | closesList {field : Token} {opened : Nat} {read : List Literal}
      (expects : s.expecting = .listEnd field opened read) (paren : t.kind = .rightParen) :
      Takes limits s t { s with expecting := .connective (predicate field (.isIn read)) }
  | and {e : Expr Predicate} (expects : s.expecting = .connective e) (joins : t.kind = .and) :
      Takes limits s t { s with
        expecting := .term
        pending := ⟨s.pending.alternatives, some (s.pending.conjoin e)⟩ }
  | or {e : Expr Predicate} (expects : s.expecting = .connective e) (joins : t.kind = .or) :
      Takes limits s t { s with expecting := .term, pending := ⟨some (s.pending.close e), none⟩ }
  | closes {e : Expr Predicate} {g : Group} {gs : List Group}
      (expects : s.expecting = .connective e) (paren : t.kind = .rightParen)
      (inside : s.groups = g :: gs) :
      Takes limits s t { s with
        expecting := .connective (s.pending.close e)
        pending := g.outside
        groups := gs }

theorem takes_of_stepTerm (hs : s.expecting = .term) (h : stepTerm limits s t = .ok s') :
    Takes limits s t s' := by
  unfold stepTerm at h
  split at h
  · rename_i hk
    split at h
    · cases h
    · rename_i hroom
      cases h
      exact .opens hs hk (Nat.not_le.mp hroom)
  · rename_i hk
    split at h
    · cases h
    · rename_i hroom
      cases h
      exact .names hs hk (Nat.not_le.mp hroom)
  · cases h

theorem takes_of_stepConnective {e : Expr Predicate} (hs : s.expecting = .connective e)
    (h : stepConnective s e t = .ok s') : Takes limits s t s' := by
  unfold stepConnective at h
  split at h
  · rename_i hk
    cases h
    exact .and hs hk
  · rename_i hk
    cases h
    exact .or hs hk
  · rename_i g gs hk hgs
    cases h
    exact .closes hs hk hgs
  all_goals cases h

theorem takes_of_step (h : step limits s t = .ok s') : Takes limits s t s' := by
  obtain ⟨expecting, pending, groups, predicates⟩ := s
  cases expecting with
  | term => exact takes_of_stepTerm rfl h
  | connective e => exact takes_of_stepConnective rfl h
  | operator field =>
    simp only [step] at h
    split at h
    · rename_i op hk
      cases h
      exact .operator rfl hk
    · cases h
  | compared field c =>
    obtain ⟨l, hl, h⟩ := bind_eq_ok.mp h
    cases h
    exact .compared rfl (literalFor_eq_ok_iff.mp hl)
  | matched field place =>
    obtain ⟨l, hl, h⟩ := bind_eq_ok.mp h
    cases h
    exact .matched rfl (literalFor_eq_ok_iff.mp hl)
  | values field =>
    simp only [step] at h
    split at h
    · rename_i hk
      cases h
      exact .opensList rfl hk
    · obtain ⟨l, hl, h⟩ := bind_eq_ok.mp h
      cases h
      exact .singleValue rfl (literalFor_eq_ok_iff.mp hl)
  | listValue field opened read =>
    obtain ⟨l, hl, h⟩ := bind_eq_ok.mp h
    split at h
    · cases h
    · rename_i hroom
      cases h
      exact .listValue rfl (literalFor_eq_ok_iff.mp hl) (Nat.not_le.mp hroom)
  | listEnd field opened read =>
    simp only [step] at h
    split at h
    · rename_i hk
      cases h
      exact .comma rfl hk
    · rename_i hk
      cases h
      exact .closesList rfl hk
    · cases h

/-- **What a step can do.** -/
theorem step_eq_ok_iff : step limits s t = .ok s' ↔ Takes limits s t s' := by
  refine ⟨takes_of_step, fun h => ?_⟩
  cases h with
  | opens expects paren room => exact step_leftParen expects paren room
  | names expects name room => exact step_name expects name room
  | operator expects kind => exact step_operator expects kind
  | compared expects value => exact step_compared expects value
  | matched expects value => exact step_matched expects value
  | singleValue expects value => exact step_singleValue expects value
  | opensList expects paren => exact step_opensList expects paren
  | listValue expects value room => exact step_listValue expects value room
  | comma expects comma => exact step_comma expects comma
  | closesList expects paren => exact step_closesList expects paren
  | and expects joins => exact step_and limits expects joins
  | or expects joins => exact step_or limits expects joins
  | closes expects paren inside => exact step_rightParen limits expects paren inside

end RecordQuery.Parser
