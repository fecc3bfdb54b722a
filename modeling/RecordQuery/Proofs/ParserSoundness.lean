import RecordQuery.Proofs.ParserSteps

/-!
# What the parser has read

A state of the parser stands for the tokens that led to it: those before each
open parenthesis, those of the expressions that wait for the next term, and
those of the term that is being read. Each step keeps this, so an expression
that the parser returns is derived from all the tokens.
-/

namespace RecordQuery.Parser

open Grammar Outcome

/-- An expression derived from the symbol with its connective after it, or
nothing at all. -/
inductive Waits (s : Symbol) (kind : TokenKind) : Option (Expr Predicate) → List Token → Prop where
  | nothing : Waits s kind none []
  | joined {ts : List Token} {t : Token} {e : Expr Predicate} (left : Derives s ts e)
      (joins : t.kind = kind) : Waits s kind (some e) (ts ++ [t])

/-- The tokens of what waits at one level of parentheses. -/
def Pending.Reads (p : Pending) (ts : List Token) : Prop :=
  ∃ us vs, ts = us ++ vs ∧ Waits .expr .or p.alternatives us ∧ Waits .andExpr .and p.conditions vs

/-- The tokens up to the innermost open parenthesis. -/
inductive Opened : List Group → List Token → Prop where
  | nothing : Opened [] []
  | inside {g : Group} {gs : List Group} {ts us : List Token} {t : Token} (before : Opened gs ts)
      (outside : g.outside.Reads us) (opens : t.kind = .leftParen) :
      Opened (g :: gs) (ts ++ us ++ [t])

/-- The tokens of the term that is being read. -/
inductive Begun : Expecting → List Token → Prop where
  | term : Begun .term []
  | operator {n : Token} (name : n.kind = .name) : Begun (.operator n) [n]
  | compared {n o : Token} {c : Comparison} (name : n.kind = .name)
      (op : o.kind = .operator (.compare c)) : Begun (.compared n c) [n, o]
  | matched {n o : Token} {place : Text.LikePattern.Place} (name : n.kind = .name)
      (op : o.kind = .operator (.pattern place)) : Begun (.matched n place) [n, o]
  | values {n o : Token} (name : n.kind = .name) (op : o.kind = .operator .isIn) :
      Begun (.values n) [n, o]
  | firstValue {n o t : Token} {opened : Nat} (name : n.kind = .name)
      (op : o.kind = .operator .isIn) (opens : t.kind = .leftParen) :
      Begun (.listValue n opened []) [n, o, t]
  | nextValue {n o t c : Token} {opened : Nat} {ts : List Token} {ls : List Literal}
      (name : n.kind = .name) (op : o.kind = .operator .isIn) (opens : t.kind = .leftParen)
      (listed : Listed ts ls) (comma : c.kind = .comma) :
      Begun (.listValue n opened ls) (n :: o :: t :: ts ++ [c])
  | listEnd {n o t : Token} {opened : Nat} {ts : List Token} {ls : List Literal}
      (name : n.kind = .name) (op : o.kind = .operator .isIn) (opens : t.kind = .leftParen)
      (listed : Listed ts ls) : Begun (.listEnd n opened ls) (n :: o :: t :: ts)
  | connective {ts : List Token} {e : Expr Predicate} (read : Derives .term ts e) :
      Begun (.connective e) ts

/-- The tokens that led to a state. -/
def State.Reads (s : State) (ts : List Token) : Prop :=
  ∃ us vs ws, ts = us ++ vs ++ ws ∧ Opened s.groups us ∧ s.pending.Reads vs ∧
    Begun s.expecting ws

/-! ## What waits is joined to the term -/

theorem Pending.reads_none : Pending.none.Reads [] :=
  ⟨[], [], rfl, .nothing, .nothing⟩

theorem Waits.conjoin {p : Pending} {ts us : List Token} {e : Expr Predicate}
    (h : Waits .andExpr .and p.conditions ts) (he : Derives .term us e) :
    Derives .andExpr (ts ++ us) (p.conjoin e) := by
  obtain ⟨alternatives, conditions⟩ := p
  cases h with
  | nothing => exact .ofTerm he
  | joined left joins => simpa [Pending.conjoin] using Derives.and left joins he

theorem Pending.Reads.close {p : Pending} {ts us : List Token} {e : Expr Predicate}
    (h : p.Reads ts) (he : Derives .term us e) : Derives .expr (ts ++ us) (p.close e) := by
  obtain ⟨vs, ws, rfl, hor, hand⟩ := h
  have hc := hand.conjoin he
  obtain ⟨alternatives, conditions⟩ := p
  cases hor with
  | nothing => exact .ofAndExpr hc
  | joined left joins => simpa [Pending.close] using Derives.or left joins hc

/-! ## One step -/

theorem Begun.afterOperator {n o : Token} {op : Operator} (name : n.kind = .name)
    (hop : o.kind = .operator op) : Begun (afterOperator n op) [n, o] := by
  cases op with
  | null => exact .connective (.predicate (.null name hop))
  | notNull => exact .connective (.predicate (.notNull name hop))
  | compare c => exact .compared name hop
  | pattern place => exact .matched name hop
  | isIn => exact .values name hop

/-- A step that only reads on in the term. -/
theorem State.Reads.advance {s : State} {us vs ws : List Token} {t : Token} {next : Expecting}
    (hg : Opened s.groups us) (hp : s.pending.Reads vs) (hb : Begun next (ws ++ [t])) :
    State.Reads { s with expecting := next } (us ++ vs ++ ws ++ [t]) :=
  ⟨us, vs, ws ++ [t], by simp, hg, hp, hb⟩

/-- One step reads one token. -/
theorem State.Reads.step {limits : Limits} {s s' : State} {ts : List Token} {t : Token}
    (h : s.Reads ts) (hs : step limits s t = .ok s') : s'.Reads (ts ++ [t]) := by
  obtain ⟨us, vs, ws, rfl, hg, hp, hb⟩ := h
  cases step_eq_ok_iff.mp hs with
  | opens expects paren =>
    rw [expects] at hb
    cases hb
    exact ⟨us ++ vs ++ [t], [], [], by simp, .inside hg hp paren, Pending.reads_none,
      by simpa [expects] using Begun.term⟩
  | names expects name =>
    rw [expects] at hb
    cases hb
    exact .advance hg hp (.operator name)
  | operator expects kind =>
    rw [expects] at hb
    cases hb with
    | operator name => exact .advance hg hp (.afterOperator name kind)
  | compared expects value =>
    rw [expects] at hb
    cases hb with
    | compared name op => exact .advance hg hp (.connective (.predicate (.compare name op value)))
  | matched expects value =>
    rw [expects] at hb
    cases hb with
    | matched name op => exact .advance hg hp (.connective (.predicate (.pattern name op value)))
  | singleValue expects value =>
    rw [expects] at hb
    cases hb with
    | values name op =>
      exact .advance hg hp (.connective (.predicate (.isIn name op (.single value))))
  | opensList expects paren =>
    rw [expects] at hb
    cases hb with
    | values name op => exact .advance hg hp (.firstValue name op paren)
  | listValue expects value =>
    rw [expects] at hb
    cases hb with
    | firstValue name op opens => exact .advance hg hp (.listEnd name op opens (.one value))
    | nextValue name op opens listed comma =>
      refine .advance hg hp ?_
      simpa using Begun.listEnd name op opens (.more listed comma value)
  | comma expects comma =>
    rw [expects] at hb
    cases hb with
    | listEnd name op opens listed =>
      exact .advance hg hp (.nextValue name op opens listed comma)
  | closesList expects paren =>
    rw [expects] at hb
    cases hb with
    | listEnd name op opens listed =>
      exact .advance hg hp (.connective (.predicate (.isIn name op (.list opens listed paren))))
  | and expects joins =>
    -- the conditions grow by the term
    rw [expects] at hb
    cases hb with
    | connective read =>
      obtain ⟨as, bs, rfl, hor, hand⟩ := hp
      exact ⟨us, as ++ (bs ++ ws ++ [t]), [], by simp, hg,
        ⟨as, bs ++ ws ++ [t], rfl, hor, .joined (hand.conjoin read) joins⟩, .term⟩
  | or expects joins =>
    -- all that waits becomes the left side
    rw [expects] at hb
    cases hb with
    | connective read =>
      exact ⟨us, vs ++ ws ++ [t], [], by simp, hg,
        ⟨vs ++ ws ++ [t], [], by simp, .joined (hp.close read) joins, .nothing⟩, .term⟩
  | closes expects paren inside =>
    -- a group becomes a term of the level outside
    rw [expects] at hb
    rw [inside] at hg
    cases hb with
    | connective read =>
      cases hg with
      | @inside _ _ as bs o before outside opens =>
        exact ⟨as, bs, o :: (vs ++ ws) ++ [t], by simp, before, outside,
          .connective (.group opens (hp.close read) paren)⟩

/-! ## All steps -/

theorem reads_start : State.start.Reads [] :=
  ⟨[], [], [], rfl, .nothing, Pending.reads_none, .term⟩

/-- A run reads its tokens. -/
theorem State.Reads.run {limits : Limits} {s s' : State} {ts us : List Token} (h : s.Reads ts)
    (hs : run limits s us = .ok s') : s'.Reads (ts ++ us) := by
  induction us generalizing s ts with
  | nil =>
    cases hs
    rwa [List.append_nil]
  | cons u us ih =>
    obtain ⟨s₁, hs₁, hs⟩ := bind_eq_ok.mp hs
    simpa using ih (h.step hs₁) hs

/-- The expression at the end is derived from all that was read. -/
theorem State.Reads.finish {stop : Nat} {s : State} {ts : List Token} {e : Expr Predicate}
    (h : s.Reads ts) (hs : finish stop s = .ok e) : Derives .expr ts e := by
  obtain ⟨us, vs, ws, rfl, hg, hp, hb⟩ := h
  obtain ⟨expecting, pending, groups, predicates⟩ := s
  cases hb with
  | connective read =>
    cases hg with
    | nothing =>
      cases hs
      exact hp.close read
    | inside => cases hs
  | _ => cases hs

/-- **Soundness**: an expression that the parser returns is derived from the
tokens, whatever the limits are. -/
theorem derives_of_parse {limits : Limits} {length : Nat} {l : Lexed} {e : Expr Predicate}
    (h : l.parse limits length = .ok e) : l.failure = none ∧ Derives .expr l.tokens e := by
  obtain ⟨s, hs, h⟩ := bind_eq_ok.mp h
  have hr : s.Reads l.tokens := reads_start.run hs
  split at h
  · cases h
  · rename_i hf
    split at h
    · cases h
    · exact ⟨hf, hr.finish h⟩

end RecordQuery.Parser
