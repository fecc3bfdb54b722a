import RecordQuery.Proofs.Outcome
import RecordQuery.Request

/-!
# Resolved filters

A filter that compiles has a tree, and each predicate of it has been looked up:
the resolved tree has the same shape, and each of its leaves the field that the
predicate names, the same operator, and one value for each literal. Statements
about compiled filters are statements about two trees that are related so.
-/

namespace RecordQuery

open Outcome

/-! ## Trees with related leaves -/

namespace Expr

/-- Trees of one shape whose leaves are related, place by place. -/
inductive Rel {α β : Type} (R : α → β → Prop) : Expr α → Expr β → Prop where
  | leaf {a : α} {b : β} (h : R a b) : Rel R (.leaf a) (.leaf b)
  | and {l r : Expr α} {l' r' : Expr β} (left : Rel R l l') (right : Rel R r r') :
      Rel R (.and l r) (.and l' r')
  | or {l r : Expr α} {l' r' : Expr β} (left : Rel R l l') (right : Rel R r r') :
      Rel R (.or l r) (.or l' r')

variable {α β γ ε : Type} {R : α → β → Prop} {S : β → γ → Prop}

theorem Rel.leaves {e : Expr α} {e' : Expr β} (h : Rel R e e') :
    List.Forall₂ R e.leaves e'.leaves := by
  induction h with
  | leaf h => exact .cons h .nil
  | and _ _ ihl ihr | or _ _ ihl ihr => exact List.rel_append ihl ihr

theorem Rel.flip {e : Expr α} {e' : Expr β} (h : Rel R e e') : Rel (fun b a => R a b) e' e := by
  induction h with
  | leaf h => exact .leaf h
  | and _ _ ihl ihr => exact .and ihl ihr
  | or _ _ ihl ihr => exact .or ihl ihr

theorem Rel.trans {e : Expr α} {e' : Expr β} {e'' : Expr γ} (h : Rel R e e') (h' : Rel S e' e'') :
    Rel (fun a c => ∃ b, R a b ∧ S b c) e e'' := by
  induction h generalizing e'' with
  | leaf h =>
    cases h' with
    | leaf h' => exact .leaf ⟨_, h, h'⟩
  | and _ _ ihl ihr =>
    cases h' with
    | and left right => exact .and (ihl left) (ihr right)
  | or _ _ ihl ihr =>
    cases h' with
    | or left right => exact .or (ihl left) (ihr right)

theorem Rel.imp {T : α → β → Prop} {e : Expr α} {e' : Expr β} (h : Rel R e e')
    (hRT : ∀ a b, R a b → T a b) : Rel T e e' := by
  induction h with
  | leaf h => exact .leaf (hRT _ _ h)
  | and _ _ ihl ihr => exact .and ihl ihr
  | or _ _ ihl ihr => exact .or ihl ihr

/-- What the leaves of the first tree are known for may be used. -/
theorem Rel.imp_of_mem {T : α → β → Prop} {e : Expr α} {e' : Expr β} (h : Rel R e e')
    (hRT : ∀ a ∈ e.leaves, ∀ b, R a b → T a b) : Rel T e e' := by
  induction h with
  | leaf h => exact .leaf (hRT _ List.mem_cons_self _ h)
  | and _ _ ihl ihr =>
    obtain ⟨hl, hr⟩ := List.forall_mem_append.mp hRT
    exact .and (ihl hl) (ihr hr)
  | or _ _ ihl ihr =>
    obtain ⟨hl, hr⟩ := List.forall_mem_append.mp hRT
    exact .or (ihl hl) (ihr hr)

/-- Replacing the leaves succeeds if it does at each leaf. -/
theorem traverse_eq_ok {f : α → Except ε β} {e : Expr α} {e' : Expr β} :
    e.traverse f = .ok e' ↔ Rel (fun a b => f a = .ok b) e e' := by
  constructor
  · intro h
    induction e generalizing e' with
    | leaf a =>
      obtain ⟨b, hb, rfl⟩ := map_eq_ok.mp h
      exact .leaf hb
    | and l r ihl ihr =>
      obtain ⟨l', hl, h⟩ := bind_eq_ok.mp h
      obtain ⟨r', hr, h⟩ := bind_eq_ok.mp h
      cases h
      exact .and (ihl hl) (ihr hr)
    | or l r ihl ihr =>
      obtain ⟨l', hl, h⟩ := bind_eq_ok.mp h
      obtain ⟨r', hr, h⟩ := bind_eq_ok.mp h
      cases h
      exact .or (ihl hl) (ihr hr)
  · intro h
    induction h with
    | leaf h => exact map_eq_ok.mpr ⟨_, h, rfl⟩
    | and _ _ ihl ihr | or _ _ ihl ihr =>
      exact bind_eq_ok.mpr ⟨_, ihl, bind_eq_ok.mpr ⟨_, ihr, rfl⟩⟩

/-- The two sides of a tree, one after the other: the second counts only if the first passes. -/
theorem traverse_pair_eq_error {f : α → Except ε β} {l r : Expr α} {err : ε}
    {join : Expr β → Expr β → Expr β} (ihl : ∀ e, l.traverse f = .error e ↔ FirstFault f l.leaves e)
    (ihr : ∀ e, r.traverse f = .error e ↔ FirstFault f r.leaves e) :
    (do return join (← l.traverse f) (← r.traverse f) : Except ε (Expr β)) = .error err ↔
      FirstFault f (l.leaves ++ r.leaves) err := by
  rw [bind_eq_error, firstFault_append, ihl, ← exists_ok_iff ihl]
  refine or_congr_right ⟨?_, ?_⟩
  · rintro ⟨l', hl, h⟩
    rcases bind_eq_error.mp h with h | ⟨r', -, h⟩
    · exact ⟨⟨l', hl⟩, (ihr err).mp h⟩
    · cases h
  · rintro ⟨⟨l', hl⟩, h⟩
    exact ⟨l', hl, bind_eq_error.mpr (.inl ((ihr err).mpr h))⟩

/-- Replacing the leaves fails as the first leaf does that cannot be replaced. -/
theorem traverse_eq_error {f : α → Except ε β} {e : Expr α} {err : ε} :
    e.traverse f = .error err ↔ FirstFault f e.leaves err := by
  induction e generalizing err with
  | leaf a =>
    rw [traverse, map_eq_error, leaves, firstFault_cons]
    simp [firstFault_nil]
  | and l r ihl ihr | or l r ihl ihr =>
    exact traverse_pair_eq_error (fun _ => ihl) (fun _ => ihr)

end Expr

/-! ## Values of literals -/

theorem Literal.type_of_datum? {l : Literal} {type : FieldType} {v : Datum}
    (h : l.datum? type = some v) : v.type = type := by
  unfold Literal.datum? at h
  split at h
  · cases h
    rfl
  · cases h
    rfl
  · obtain ⟨n, -, rfl⟩ := Option.map_eq_some_iff.mp h
    rfl
  · obtain ⟨d, -, rfl⟩ := Option.map_eq_some_iff.mp h
    rfl
  · obtain ⟨t, -, rfl⟩ := Option.map_eq_some_iff.mp h
    rfl
  · cases h
    rfl
  · cases h

namespace Field

/-- What an operator binds for a literal: the value that the literal denotes
for the field, as a pattern if the operator searches for it. -/
def bound (f : Field) (op : Operator) (l : Literal) : Except QueryError Datum :=
  match op with
  | .pattern place => f.coercePattern place l
  | _ => f.coerce l

/-- The type of all values that an operator binds. -/
def boundType (f : Field) (op : Operator) : FieldType :=
  if op.isPattern then .string else f.type

theorem type_of_coerce {f : Field} {l : Literal} {v : Datum} (h : f.coerce l = .ok v) :
    v.type = f.type := by
  unfold coerce at h
  split at h <;> cases h
  rename_i hd
  exact Literal.type_of_datum? hd

theorem type_of_bound {f : Field} {op : Operator} {l : Literal} {v : Datum}
    (h : f.bound op l = .ok v) : v.type = f.boundType op := by
  cases op with
  | pattern place =>
    -- a pattern is text, whatever the field holds
    simp only [bound, coercePattern] at h
    split at h <;> cases h
    rfl
  | compare | null | notNull | isIn => exact type_of_coerce h

/-- A resolved test has the operator of the test, and one value for each literal. -/
theorem resolveTest_eq_ok {f : Field} {t : Test Literal} {t' : Test Datum}
    (h : f.resolveTest t = .ok t') :
    t'.operator = t.operator ∧
      List.Forall₂ (fun l v => f.bound t.operator l = .ok v) t.values t'.values := by
  cases t with
  | null =>
    cases h
    exact ⟨rfl, .nil⟩
  | notNull =>
    cases h
    exact ⟨rfl, .nil⟩
  | compare c l =>
    obtain ⟨v, hv, rfl⟩ := map_eq_ok.mp h
    exact ⟨rfl, .cons hv .nil⟩
  | pattern place l =>
    obtain ⟨v, hv, rfl⟩ := map_eq_ok.mp h
    exact ⟨rfl, .cons hv .nil⟩
  | isIn ls =>
    obtain ⟨vs, hvs, rfl⟩ := map_eq_ok.mp h
    exact ⟨rfl, mapM_eq_ok.mp hvs⟩

/-- A test fails to resolve as the first of its literals does that binds nothing. -/
theorem resolveTest_eq_error {f : Field} {t : Test Literal} {err : QueryError} :
    f.resolveTest t = .error err ↔ FirstFault (f.bound t.operator) t.values err := by
  cases t with
  | null | notNull => exact iff_of_false nofun firstFault_nil
  | compare c l | pattern place l =>
    rw [resolveTest, map_eq_error, Test.values, firstFault_cons]
    simp [firstFault_nil, bound, Test.operator]
  | isIn ls =>
    rw [resolveTest, map_eq_error]
    exact mapM_eq_error

end Field

/-! ## Compiled filters -/

/-- A predicate and what it is resolved to. -/
structure Predicate.Resolves (r : RecordType) (p : Predicate) (q : ResolvedPredicate) : Prop where
  field : r.field? p.field = some q.field
  allowed : q.field.operators.contains p.test.operator = true
  operator : q.test.operator = p.test.operator
  values : List.Forall₂ (fun l v => q.field.bound p.test.operator l = .ok v)
    p.test.values q.test.values

theorem Predicate.resolves_of_resolve {r : RecordType} {p : Predicate} {q : ResolvedPredicate}
    (h : p.resolve r = .ok q) : p.Resolves r q := by
  unfold Predicate.resolve at h
  split at h
  · cases h
  · rename_i f hf
    split at h
    · rename_i hop
      obtain ⟨t, ht, rfl⟩ := map_eq_ok.mp h
      obtain ⟨hoperator, hvalues⟩ := Field.resolveTest_eq_ok ht
      exact ⟨hf, hop, hoperator, hvalues⟩
    · cases h

theorem Expr.resolves_of_resolve {r : RecordType} {e : Expr Predicate}
    {q : Expr ResolvedPredicate} (h : e.resolve r = .ok q) : e.Rel (Predicate.Resolves r) q :=
  (Expr.traverse_eq_ok.mp h).imp fun _ _ => Predicate.resolves_of_resolve

/-- A filter compiles to the condition of its resolved tree. -/
theorem compileFilter_eq_ok {r : RecordType} {limits : Limits} {text : String} {c : Condition} :
    compileFilter r limits text = .ok c ↔
      ∃ e q, parse limits text = .ok e ∧ e.resolve r = .ok q ∧ c = .ofExpr q := by
  constructor
  · intro h
    obtain ⟨e, he, h⟩ := bind_eq_ok.mp h
    obtain ⟨q, hq, h⟩ := bind_eq_ok.mp h
    cases h
    exact ⟨e, q, he, hq, rfl⟩
  · rintro ⟨e, q, he, hq, rfl⟩
    exact bind_eq_ok.mpr ⟨e, he, bind_eq_ok.mpr ⟨q, hq, rfl⟩⟩

end RecordQuery
