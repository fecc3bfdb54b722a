import RecordQuery.Proofs.Placeholders
import RecordQuery.Proofs.Readability

/-!
# Agreement of the stages

The parser decides how many values an operator has, the schema where an operator
is allowed, resolving what its values are, and the condition how it is written.
None of them asks the others. For every leaf of a filter that compiles they agree
all the same, so that where a case is left to "everything else", only the one
operator comes that is meant there.
-/

namespace RecordQuery

open Outcome Text

/-! ## What the parser leaves to an operator -/

/-- An operator of the arity can stand before this many values. -/
def Arity.Takes : Arity → Nat → Prop
  | .nullary, count => count = 0
  | .unary, count => count = 1
  | .list, count => 0 < count

namespace Grammar

/-- A predicate has as many values as its operator takes. -/
theorem Leaf.takes {ts : List Token} {p : Predicate} (h : Leaf ts p) :
    p.test.operator.arity.Takes p.test.values.length := by
  cases h with
  | null | notNull | compare | pattern => rfl
  | isIn _ _ values => exact values.length_pos

/-- Every leaf of a tree has been written as one. -/
theorem Derives.exists_leaf {s : Symbol} {ts : List Token} {e : Expr Predicate}
    (h : Derives s ts e) : ∀ p ∈ e.leaves, ∃ us, Leaf us p := by
  induction h with
  | @predicate ts p leaf =>
    intro p' hp
    rw [List.mem_singleton.mp hp]
    exact ⟨ts, leaf⟩
  | group _ _ _ ih | ofTerm _ ih | ofAndExpr _ ih => exact ih
  | and _ _ _ ihl ihr | or _ _ _ ihl ihr => exact List.forall_mem_append.mpr ⟨ihl, ihr⟩

end Grammar

/-! ## How each operator is written -/

/-- How a predicate on a field is written, and the values that it binds, one rule
for each kind of operator. -/
inductive Field.Writes (f : Field) : Operator → List Datum → String → Prop where
  | compare {c : Comparison} {v : Datum} (type : v.type = f.type) :
      Writes f (.compare c) [v] (f.column ++ " " ++ c.sql ++ " ?")
  | pattern {place : LikePattern.Place} {s : String} (type : f.type = .string) :
      Writes f (.pattern place) [.string s] (f.column ++ " LIKE ? ESCAPE '\\'")
  | null : Writes f .null [] (f.column ++ " IS NULL")
  | notNull : Writes f .notNull [] (f.column ++ " IS NOT NULL")
  | isIn {v : Datum} {vs : List Datum} (types : ∀ w ∈ v :: vs, w.type = f.type) :
      Writes f .isIn (v :: vs)
        (f.column ++ " IN (" ++ ", ".intercalate ((v :: vs).map fun _ => "?") ++ ")")

/-! ## Writing by operands -/

/-- The values of an operator: none at all, a single one, or a list. -/
inductive Operand where
  | none
  | one (value : Datum)
  | list (values : List Datum)

/-- The values of a test, without what is asked of them. -/
def Test.operand : Test Datum → Operand
  | .null | .notNull => .none
  | .compare _ v | .pattern _ v => .one v
  | .isIn vs => .list vs

/-- The comparison that an operator is, if it is one. -/
def Operator.comparison? : Operator → Option Comparison
  | .compare c => some c
  | _ => .none

/-- A predicate written by its operand first. Without a value, whatever is not
`$nn` asks for NULL; with one value, whatever is no comparison is a search. -/
def Operand.fragment (column : String) (op : Operator) : Operand → String
  | .none => if op = .notNull then column ++ " IS NOT NULL" else column ++ " IS NULL"
  | .one _ =>
    match op.comparison? with
    | some c => column ++ " " ++ c.sql ++ " ?"
    | .none => column ++ " LIKE ? ESCAPE '\\'"
  | .list vs => column ++ " IN (" ++ ", ".intercalate (vs.map fun _ => "?") ++ ")"

theorem Condition.testFragment_eq_fragment (column : String) (t : Test Datum) :
    testFragment column t = t.operand.fragment column t.operator := by
  cases t <;> rfl

/-! ## Leaves -/

/-- The stages agree on a predicate and on what it is resolved to. -/
structure Predicate.Agrees (d : RecordDeclaration) (p : Predicate) (q : ResolvedPredicate) :
    Prop where
  /-- The field is one of the declaration, under the name in the filter. -/
  declared : q.field.name = p.field ∧ ∃ fd ∈ d.fields, fd.Declares d.qualifier q.field
  operator : q.test.operator = p.test.operator
  allowed : q.field.operators.contains p.test.operator = true
  applies : p.test.operator.appliesTo q.field.type = true
  takes : p.test.operator.arity.Takes p.test.values.length
  count : q.test.values.length = p.test.values.length
  /-- The text is that of the operator, with the values that the operator binds. -/
  written : q.field.Writes p.test.operator q.test.values
    (Condition.testFragment q.field.column q.test)
  /-- It is the text of no other operator, but for the place of a search. -/
  only : ∀ op count, (Condition.testFragment q.field.column q.test).toList =
    q.field.column.toList ++ ' ' :: Condition.asked op count → p.test.operator.Alike op
  /-- Writing by operands first gives the same text. -/
  byOperand : q.test.operand.fragment q.field.column p.test.operator =
    Condition.testFragment q.field.column q.test
  /-- Of the operators without a value, only `$null` is taken for it. -/
  fallsToNull : q.test.operand = .none → p.test.operator ≠ .notNull → p.test.operator = .null
  /-- Of the operators with one value, only searches in strings are taken for searches. -/
  fallsToLike : ∀ v, q.test.operand = .one v → p.test.operator.comparison? = none →
    p.test.operator.isPattern = true ∧ q.field.type = .string
  /-- Where an operator searches, every value of the field is a string. -/
  strings : p.test.operator.isPattern = true → ∀ l v, q.field.coerce l = .ok v →
    ∃ s, v = .string s

theorem Datum.eq_string {v : Datum} (h : v.type = .string) : ∃ s, v = .string s := by
  cases v with
  | string s => exact ⟨s, rfl⟩
  | integer | decimal | timestamp | boolean => cases h

theorem Operator.type_eq_string {op : Operator} {type : FieldType}
    (h : op.isPattern = true) (happlies : op.appliesTo type = true) : type = .string := by
  cases op with
  | pattern => exact beq_iff_eq.mp happlies
  | compare | null | notNull | isIn => cases h

namespace ResolvedPredicate

variable {q : ResolvedPredicate}

theorem written (happlies : q.test.operator.appliesTo q.field.type = true)
    (htakes : q.test.operator.arity.Takes q.test.values.length)
    (htypes : ∀ v ∈ q.test.values, v.type = q.field.boundType q.test.operator) :
    q.field.Writes q.test.operator q.test.values
      (Condition.testFragment q.field.column q.test) := by
  obtain ⟨f, t⟩ := q
  cases t with
  | null => exact .null
  | notNull => exact .notNull
  | compare c v => exact .compare (htypes v List.mem_cons_self)
  | pattern place v =>
    obtain ⟨s, rfl⟩ := Datum.eq_string (htypes v List.mem_cons_self)
    exact .pattern (Operator.type_eq_string rfl happlies)
  | isIn vs =>
    cases vs with
    | nil => exact absurd htakes (Nat.lt_irrefl 0)
    | cons v vs => exact .isIn htypes

theorem alike_of_testFragment_eq {op : Operator} {count : Nat}
    (h : (Condition.testFragment q.field.column q.test).toList =
      q.field.column.toList ++ ' ' :: Condition.asked op count) : q.test.operator.Alike op := by
  rw [Condition.toList_testFragment] at h
  have hasked := (List.cons.inj (List.append_cancel_left h)).2
  have hrest : Condition.asked q.test.operator q.test.values.length ++ [] =
      Condition.asked op count ++ [] := by rw [hasked]
  exact (Condition.asked_append_inj hrest).1

theorem eq_null_of_operand (h : q.test.operand = .none) (hop : q.test.operator ≠ .notNull) :
    q.test.operator = .null := by
  obtain ⟨f, t⟩ := q
  cases t with
  | null => rfl
  | notNull => exact absurd rfl hop
  | compare | pattern | isIn => cases h

theorem isPattern_of_operand {v : Datum} (h : q.test.operand = .one v)
    (hop : q.test.operator.comparison? = none) : q.test.operator.isPattern = true := by
  obtain ⟨f, t⟩ := q
  cases t with
  | compare => cases hop
  | pattern => rfl
  | null | notNull | isIn => cases h

end ResolvedPredicate

theorem Predicate.Resolves.agrees {d : RecordDeclaration} {r : RecordType} {p : Predicate}
    {q : ResolvedPredicate} (h : p.Resolves r q) (hr : d.resolve = .ok r)
    (htakes : p.test.operator.arity.Takes p.test.values.length) : p.Agrees d q := by
  obtain ⟨hname, fd, hfd, hdeclares⟩ := RecordType.exists_declares hr h.field
  have happlies : p.test.operator.appliesTo q.field.type = true :=
    hdeclares.applies _ h.allowed
  have hcount : q.test.values.length = p.test.values.length := h.values.length_eq.symm
  have htypes := h.types
  have hop := h.operator
  exact {
    declared := ⟨hname, fd, hfd, hdeclares⟩
    operator := hop
    allowed := h.allowed
    applies := happlies
    takes := htakes
    count := hcount
    written := by
      rw [← hop] at happlies htakes htypes ⊢
      rw [← hcount] at htakes
      exact ResolvedPredicate.written happlies htakes htypes
    only := by
      intro op count htext
      rw [← hop]
      exact ResolvedPredicate.alike_of_testFragment_eq htext
    byOperand := by rw [Condition.testFragment_eq_fragment, hop]
    fallsToNull := by
      rw [← hop]
      exact ResolvedPredicate.eq_null_of_operand
    fallsToLike := by
      intro v hv hcomparison
      have hpattern : p.test.operator.isPattern = true := by
        rw [← hop] at hcomparison ⊢
        exact ResolvedPredicate.isPattern_of_operand hv hcomparison
      exact ⟨hpattern, Operator.type_eq_string hpattern happlies⟩
    strings := by
      intro hpattern l v hv
      refine Datum.eq_string ?_
      rw [Field.type_of_coerce hv]
      exact Operator.type_eq_string hpattern happlies }

/-- **The stages agree on every leaf** of a filter that compiles: the field is
declared, the operator is allowed and applies to it, and the leaf is written as
its operator is, with as many values of the right type as the operator takes. -/
theorem agrees_of_compileFilter {d : RecordDeclaration} {r : RecordType} {limits : Limits}
    {text : String} {c : Condition} (hr : d.resolve = .ok r)
    (hc : compileFilter r limits text = .ok c) :
    ∃ e q, parse limits text = .ok e ∧ e.resolve r = .ok q ∧ c = .ofExpr q ∧
      e.Rel (Predicate.Agrees d) q := by
  obtain ⟨e, q, he, hq, rfl⟩ := compileFilter_eq_ok.mp hc
  refine ⟨e, q, he, hq, rfl, ?_⟩
  refine (Expr.resolves_of_resolve hq).imp_of_mem fun p hp q hres => ?_
  obtain ⟨ts, hleaf⟩ := (Parser.derives_of_parse he).2.exists_leaf p hp
  exact hres.agrees hr hleaf.takes

/-- A search, a list and a test for NULL, on two fields of which one has its own operators. -/
theorem agrees_of_compileFilter_kinds :
    let decl : RecordDeclaration :=
      { name := "user", qualifier := some "u",
        fields := [{ name := "name", type := .string },
          { name := "age", type := .integer, operators := some [.isIn, .notNull] }] }
    let r : RecordType := ⟨"user", none, none,
      [⟨"name", "u.name", .string, .allFor .string, false⟩,
        ⟨"age", "u.age", .integer, .ofList [.isIn, .notNull], false⟩]⟩
    let text := "name $ct 'x' AND (age $in (1, 2) OR age $nn)"
    let c : Condition :=
      ⟨"(u.name LIKE ? ESCAPE '\\' AND (u.age IN (?, ?) OR u.age IS NOT NULL))",
        [.string "%x%", .integer 1, .integer 2]⟩
    decl.resolve = .ok r ∧ compileFilter r {} text = .ok c ∧
      ∃ e q, parse {} text = .ok e ∧ e.resolve r = .ok q ∧ c = .ofExpr q ∧
        e.Rel (Predicate.Agrees decl) q := by
  intro decl r text c
  have hr : decl.resolve = .ok r := by decide +kernel
  have hc : compileFilter r {} text = .ok c := by decide +kernel
  exact ⟨hr, hc, agrees_of_compileFilter hr hc⟩

end RecordQuery
