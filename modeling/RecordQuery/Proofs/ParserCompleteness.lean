import RecordQuery.Proofs.ParserFaults
import RecordQuery.Proofs.ParserRuns
import RecordQuery.Proofs.TokenOrder

/-!
# What the parser accepts

A limit is only ever reached by a token too many: each token opens at most one
group, names at most one field and adds at most one value to a list. Where the
limits leave room for all tokens, the parser returns exactly the expressions
that the grammar derives, and refuses everything else with a parse error.
-/

namespace RecordQuery.Parser

open Grammar Outcome Text

variable {limits : Limits} {s s' : State} {t : Token} {k : Nat}

/-! ## Room for more tokens -/

/-- The limits let the parser take `k` tokens more, whatever they are. -/
structure State.Fits (limits : Limits) (s : State) (k : Nat) : Prop where
  depth : s.groups.length + k ≤ limits.depth
  predicates : s.predicates + k ≤ limits.predicates
  listValues : s.expecting.listed + k ≤ limits.listValues

theorem listed_afterOperator (field : Token) (op : Operator) :
    (afterOperator field op).listed = 0 := by
  cases op <;> rfl

/-- A token opens at most one group, names at most one field and adds at most
one value to a list. -/
theorem step_counts (h : step limits s t = .ok s') :
    s'.groups.length ≤ s.groups.length + 1 ∧ s'.predicates ≤ s.predicates + 1 ∧
      s'.expecting.listed ≤ s.expecting.listed + 1 := by
  cases step_eq_ok_iff.mp h with
  | opens => exact ⟨Nat.le_refl _, Nat.le_add_right .., Nat.le_add_right ..⟩
  | names => exact ⟨Nat.le_add_right .., Nat.le_refl _, Nat.zero_le _⟩
  | operator => exact ⟨Nat.le_add_right .., Nat.le_add_right .., by simp [listed_afterOperator]⟩
  | listValue expects =>
    exact ⟨Nat.le_add_right .., Nat.le_add_right .., by simp [expects, Expecting.listed]⟩
  | comma expects =>
    exact ⟨Nat.le_add_right .., Nat.le_add_right .., by simp [expects, Expecting.listed]⟩
  | closes _ _ inside =>
    refine ⟨?_, Nat.le_add_right .., Nat.zero_le _⟩
    rw [inside, List.length_cons]
    exact Nat.le_add_right _ 2
  | _ => exact ⟨Nat.le_add_right .., Nat.le_add_right .., Nat.zero_le _⟩

theorem State.Fits.mono (h : s.Fits limits k) {j : Nat} (hj : j ≤ k) : s.Fits limits j :=
  ⟨Nat.le_trans (by omega) h.depth, Nat.le_trans (by omega) h.predicates,
    Nat.le_trans (by omega) h.listValues⟩

theorem State.Fits.after_step (h : s.Fits limits (k + 1)) (hs : step limits s t = .ok s') :
    s'.Fits limits k := by
  obtain ⟨hg, hp, hl⟩ := step_counts hs
  obtain ⟨hd, hq, hv⟩ := h
  exact ⟨by omega, by omega, by omega⟩

theorem State.Fits.fault_of_step (h : s.Fits limits (k + 1)) {e : QueryError}
    (hs : step limits s t = .error e) : ∃ fault, e = .parse fault := by
  obtain ⟨hd, hq, hv⟩ := h
  rcases step_error hs with ⟨fault, he, -⟩ | hfull
  · exact ⟨fault, he⟩
  · cases hfull <;> omega

/-- Where there is room for all tokens, a run fails with nothing but a parse error. -/
theorem State.Fits.fault_of_run {ts : List Token} (h : s.Fits limits ts.length) {e : QueryError}
    (hs : run limits s ts = .error e) : ∃ fault, e = .parse fault := by
  induction ts generalizing s with
  | nil => cases hs
  | cons t ts ih =>
    rcases bind_eq_error.mp hs with hs₁ | ⟨s₁, hs₁, hs⟩
    · exact h.fault_of_step hs₁
    · exact ih (h.after_step hs₁) hs

/-! ## The whole text -/

theorem fits_start {n : Nat} (hp : n ≤ limits.predicates) (hd : n ≤ limits.depth)
    (hl : n ≤ limits.listValues) : State.start.Fits limits n := by
  constructor <;> simpa [State.start, Expecting.listed]

/-- **Completeness**: where the limits leave room for all tokens, what they
write is returned. -/
theorem parse_of_derives {ts : List Token} {e : Expr Predicate} (length : Nat)
    (h : Derives .expr ts e) (hf : State.start.Fits limits ts.length) :
    Lexed.parse limits length ⟨ts, none⟩ = .ok e := by
  have hp := hf.predicates
  have hd := hf.depth
  have hl := hf.listValues
  simp only [State.start, List.length_nil, Expecting.listed, Nat.zero_add] at hp hd hl
  obtain ⟨hp', hd', hl'⟩ := Demand.ofTokens_le_length 0 ts
  exact parse_of_allow length h ⟨by omega, by omega, by omega⟩

/-- A list of tokens writes at most one expression. -/
theorem derives_unique {ts : List Token} {e e' : Expr Predicate} (h : Derives .expr ts e)
    (h' : Derives .expr ts e') : e = e' := by
  -- both are what the parser returns, given room for all tokens
  let roomy : Limits := { predicates := ts.length, depth := ts.length, listValues := ts.length }
  have hf : State.start.Fits roomy ts.length :=
    fits_start (Nat.le_refl _) (Nat.le_refl _) (Nat.le_refl _)
  have he := parse_of_derives 0 h hf
  rw [parse_of_derives 0 h' hf] at he
  exact (Except.ok.inj he).symm

/-- Where the limits leave room for all tokens, they are refused with a parse
error or not at all. -/
theorem parse_error {ts : List Token} {length : Nat} {e : QueryError}
    (hf : State.start.Fits limits ts.length)
    (h : Lexed.parse limits length ⟨ts, none⟩ = .error e) : ∃ fault, e = .parse fault := by
  rcases bind_eq_error.mp h with hrun | ⟨s, hrun, h⟩
  · exact hf.fault_of_run hrun
  · simp only at h
    split at h
    · cases h
      exact ⟨_, rfl⟩
    · obtain ⟨fault, he, -⟩ := finish_error h
      exact ⟨fault, he⟩

/-- **The parser accepts exactly the grammar**, and returns the one tree that it
prescribes. With limits that no text of the length can reach, everything else
is a parse error. -/
theorem parse_iff_derives {text : String} {ts : List Token} {limits : Limits}
    (ht : tokenize text = .ok ts)
    (hp : byteLength text.toList ≤ limits.predicates)
    (hd : byteLength text.toList ≤ limits.depth)
    (hl : byteLength text.toList ≤ limits.listValues) :
    (∀ e, parse limits text = .ok e ↔ Derives .expr ts e) ∧
      (∀ e e', Derives .expr ts e → Derives .expr ts e' → e = e') ∧
      ((¬ ∃ e, Derives .expr ts e) → ∃ fault, parse limits text = .error (.parse fault)) := by
  have hlexed : Lexed.ofText text = ⟨ts, none⟩ := Lexed.of_tokenize ht
  have hf : State.start.Fits limits ts.length := by
    have hlen : ts.length ≤ byteLength text.toList := by
      have := Lexed.length_tokens_le 0 text.toList
      rwa [show Lexed.ofChars 0 text.toList = ⟨ts, none⟩ from hlexed] at this
    exact (fits_start hp hd hl).mono hlen
  rw [parse, hlexed]
  refine ⟨fun e => ⟨fun h => (derives_of_parse h).2, fun h => parse_of_derives _ h hf⟩,
    fun e e' => derives_unique, fun hnone => ?_⟩
  cases h : Lexed.parse limits (byteLength text.toList) ⟨ts, none⟩ with
  | ok e => exact absurd ⟨e, (derives_of_parse h).2⟩ hnone
  | error e =>
    obtain ⟨fault, rfl⟩ := parse_error hf h
    exact ⟨fault, rfl⟩

/-- OR joins what AND has joined, and a group leaves no trace. -/
theorem parse_iff_derives_grouped :
    let text := "(a $nn) OR b = 1 AND c = 2"
    let ts : List Token :=
      [⟨.leftParen, ['('], false, 0⟩, ⟨.name, ['a'], false, 1⟩,
        ⟨.operator .notNull, ['$', 'n', 'n'], false, 3⟩, ⟨.rightParen, [')'], false, 6⟩,
        ⟨.or, ['O', 'R'], false, 8⟩, ⟨.name, ['b'], false, 11⟩,
        ⟨.operator (.compare .equal), ['='], false, 13⟩, ⟨.number, ['1'], false, 15⟩,
        ⟨.and, ['A', 'N', 'D'], false, 17⟩, ⟨.name, ['c'], false, 21⟩,
        ⟨.operator (.compare .equal), ['='], false, 23⟩, ⟨.number, ['2'], false, 25⟩]
    tokenize text = .ok ts ∧ byteLength text.toList ≤ ({} : Limits).depth ∧
      Derives .expr ts (.or (.leaf ⟨"a", 1, .notNull⟩)
        (.and (.leaf ⟨"b", 11, .compare .equal ⟨.number, ['1'], 15⟩⟩)
          (.leaf ⟨"c", 21, .compare .equal ⟨.number, ['2'], 25⟩⟩))) := by
  intro text ts
  have ht : tokenize text = .ok ts := by decide +kernel
  have hd : byteLength text.toList ≤ ({} : Limits).depth := by decide +kernel
  have hp : byteLength text.toList ≤ ({} : Limits).predicates := by decide +kernel
  have hl : byteLength text.toList ≤ ({} : Limits).listValues := by decide +kernel
  exact ⟨ht, hd, ((parse_iff_derives ht hp hd hl).1 _).mp (by decide +kernel)⟩

end RecordQuery.Parser
