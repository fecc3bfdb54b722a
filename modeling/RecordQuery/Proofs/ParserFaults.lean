import RecordQuery.Filter.Parser
import RecordQuery.Proofs.Outcome

/-!
# What the parser refuses

The parser stops for one of three reasons. A token cannot follow what has been read: then it is
reported where it stands. A limit is used up: then it is named. Or the text ends too early.
-/

namespace RecordQuery

open Outcome

/-- The fault of a text of `stop` bytes is that something is missing at its end. -/
def ParseError.AtEnd (stop : Nat) (fault : ParseError) : Prop :=
  match fault.cause with
  | .emptyFilter | .missingTerm | .missingValue _ | .unclosedParen => True
  | .missingOperator _ => fault.position = stop
  | _ => False

/-- The fault lies at the token, and is not that something is missing at an end behind it. -/
structure ParseError.AtToken (t : Token) (fault : ParseError) : Prop where
  position : fault.position = t.position
  notAtEnd : ∀ stop, t.position < stop → ¬ fault.AtEnd stop

namespace Parser

variable {limits : Limits} {s s' : State} {t : Token} {e : QueryError}

/-- The number of values in the list that is being read. -/
def Expecting.listed : Expecting → Nat
  | .listValue _ _ read => read.length
  | .listEnd _ _ read => read.length
  | _ => 0

/-- The error names a limit that is used up. -/
inductive UsedUp (limits : Limits) (s : State) : QueryError → Prop where
  | depth (full : limits.depth ≤ s.groups.length) :
      UsedUp limits s (.limitExceeded .depth limits.depth)
  | predicates (full : limits.predicates ≤ s.predicates) :
      UsedUp limits s (.limitExceeded .predicates limits.predicates)
  | listValues (full : limits.listValues ≤ s.expecting.listed) :
      UsedUp limits s (.limitExceeded .listValues limits.listValues)

/-! ## One token -/

/-- The token is at fault. -/
def Faulty (t : Token) (e : QueryError) : Prop :=
  ∃ fault, e = .parse fault ∧ fault.AtToken t

theorem faulty_fail {cause : ParseCause}
    (h : ∀ stop, t.position < stop → ¬ ParseError.AtEnd stop ⟨t.position, cause⟩) :
    Faulty t (.parse ⟨t.position, cause⟩) :=
  ⟨_, rfl, rfl, h⟩

theorem literalFor_error {op : Operator} (h : literalFor op t = .error e) : Faulty t e := by
  unfold literalFor at h
  split at h
  · cases h
  · cases h
    exact faulty_fail fun _ _ hend => hend

theorem stepTerm_error (h : stepTerm limits s t = .error e) : Faulty t e ∨ UsedUp limits s e := by
  unfold stepTerm at h
  split at h
  · split at h
    · rename_i hfull
      cases h
      exact .inr (.depth hfull)
    · cases h
  · split at h
    · rename_i hfull
      cases h
      exact .inr (.predicates hfull)
    · cases h
  · cases h
    exact .inl (faulty_fail fun _ _ hend => hend)

theorem stepConnective_error {term : Expr Predicate} (h : stepConnective s term t = .error e) :
    Faulty t e := by
  unfold stepConnective at h
  split at h
  all_goals cases h
  all_goals exact faulty_fail fun _ _ hend => hend

/-- A token is refused for its own fault, or because a limit is used up. -/
theorem step_error (h : step limits s t = .error e) : Faulty t e ∨ UsedUp limits s e := by
  obtain ⟨expecting, pending, groups, predicates⟩ := s
  cases expecting with
  | term => exact stepTerm_error h
  | connective term => exact .inl (stepConnective_error h)
  | operator field =>
    simp only [step] at h
    split at h
    · cases h
    · cases h
      exact .inl (faulty_fail fun _ hlt => Nat.ne_of_lt hlt)
  | compared field c | matched field place =>
    rcases bind_eq_error.mp h with hl | ⟨l, -, h⟩
    · exact .inl (literalFor_error hl)
    · cases h
  | values field =>
    simp only [step] at h
    split at h
    · cases h
    · rcases bind_eq_error.mp h with hl | ⟨l, -, h⟩
      · exact .inl (literalFor_error hl)
      · cases h
  | listValue field opened read =>
    rcases bind_eq_error.mp h with hl | ⟨l, -, h⟩
    · exact .inl (literalFor_error hl)
    · split at h
      · rename_i hfull
        cases h
        exact .inr (.listValues hfull)
      · cases h
  | listEnd field opened read =>
    simp only [step] at h
    split at h
    · cases h
    · cases h
    · cases h
      exact .inl (faulty_fail fun _ _ hend => hend)

/-! ## All tokens and the end -/

/-- A run stops at the first token that is refused. -/
theorem exists_of_run_error {ts : List Token} (h : run limits s ts = .error e) :
    ∃ us t vs s', ts = us ++ t :: vs ∧ run limits s us = .ok s' ∧ step limits s' t = .error e := by
  induction ts generalizing s with
  | nil => cases h
  | cons t ts ih =>
    rcases bind_eq_error.mp h with hstep | ⟨s₁, hstep, hrun⟩
    · exact ⟨[], t, ts, s, rfl, rfl, hstep⟩
    · obtain ⟨us, u, vs, s', rfl, hus, hu⟩ := ih hrun
      exact ⟨t :: us, u, vs, s', rfl, bind_eq_ok.mpr ⟨s₁, hstep, hus⟩, hu⟩

theorem finish_error {stop : Nat} (h : finish stop s = .error e) :
    ∃ fault, e = .parse fault ∧ fault.AtEnd stop := by
  unfold finish at h
  split at h
  case h_8 =>
    split at h
    · cases h
    · cases h
      exact ⟨_, rfl, trivial⟩
  case h_2 =>
    cases h
    exact ⟨_, rfl, rfl⟩
  all_goals
    cases h
    exact ⟨_, rfl, trivial⟩

end Parser

end RecordQuery
