import RecordQuery.Proofs.Fragment
import RecordQuery.Proofs.ParserRuns
import RecordQuery.Proofs.Resolution
import RecordQuery.Proofs.TokenContext

/-!
# Filters within filters

A filter means the same wherever it stands: in parentheses, its tokens are the
same but for their places, and so is its expression. Places are told in errors
only, so a filter that is joined to another keeps its condition. What the limits
have to allow for the two is what each of them demands, and one group more.
-/

namespace RecordQuery

open Grammar Outcome Text

/-! ## Expressions at another place -/

/-- The literal, `n` bytes further on. -/
def Literal.moved (n : Nat) (l : Literal) : Literal :=
  { l with position := l.position + n }

/-- The test with every value replaced. -/
def Test.map {α β : Type} (f : α → β) : Test α → Test β
  | .null => .null
  | .notNull => .notNull
  | .compare c v => .compare c (f v)
  | .pattern p v => .pattern p (f v)
  | .isIn vs => .isIn (vs.map f)

/-- The predicate, `n` bytes further on. -/
def Predicate.moved (n : Nat) (p : Predicate) : Predicate :=
  ⟨p.field, p.position + n, p.test.map (Literal.moved n)⟩

namespace Grammar

variable {ts : List Token}

theorem Value.moved {t : Token} {l : Literal} (h : Value t l) (n : Nat) :
    Value (t.moved n) (l.moved n) := by
  cases h with
  | string kind => exact .string (t := t.moved n) kind
  | number kind => exact .number (t := t.moved n) kind
  | timestamp kind => exact .timestamp (t := t.moved n) kind
  | boolean kind word => exact .boolean (t := t.moved n) kind word

theorem Listed.moved {ls : List Literal} (h : Listed ts ls) (n : Nat) :
    Listed (ts.map (Token.moved n)) (ls.map (Literal.moved n)) := by
  induction h with
  | one value => exact .one (value.moved n)
  | more _ comma value ih =>
    rw [List.map_append, List.map_append]
    exact .more ih comma (value.moved n)

theorem Values.moved {ls : List Literal} (h : Values ts ls) (n : Nat) :
    Values (ts.map (Token.moved n)) (ls.map (Literal.moved n)) := by
  cases h with
  | single value => exact .single (value.moved n)
  | list opens listed closes =>
    rw [List.map_append]
    exact .list opens (listed.moved n) closes

theorem Leaf.moved {p : Predicate} (h : Leaf ts p) (n : Nat) :
    Leaf (ts.map (Token.moved n)) (p.moved n) := by
  cases h with
  | null name op => exact .null name op
  | notNull name op => exact .notNull name op
  | compare name op value => exact .compare name op (value.moved n)
  | pattern name op value => exact .pattern name op (value.moved n)
  | isIn name op values => exact .isIn name op (values.moved n)

/-- What is derived from tokens is derived from them at another place. -/
theorem Derives.moved {sym : Symbol} {e : Expr Predicate} (h : Derives sym ts e) (n : Nat) :
    Derives sym (ts.map (Token.moved n)) (e.map (Predicate.moved n)) := by
  induction h with
  | predicate leaf => exact .predicate (leaf.moved n)
  | group opens _ closes ih =>
    rw [List.map_append]
    exact .group opens ih closes
  | ofTerm _ ih => exact .ofTerm ih
  | and _ joins _ ihl ihr =>
    rw [List.map_append]
    exact .and ihl joins ihr
  | ofAndExpr _ ih => exact .ofAndExpr ih
  | or _ joins _ ihl ihr =>
    rw [List.map_append]
    exact .or ihl joins ihr

end Grammar

theorem Test.operator_map {α β : Type} (f : α → β) (t : Test α) :
    (t.map f).operator = t.operator := by
  cases t <;> rfl

theorem Field.resolveTest_moved (f : Field) (n : Nat) (t : Test Literal) :
    f.resolveTest (t.map (Literal.moved n)) = f.resolveTest t := by
  cases t with
  | null | notNull | compare | pattern => rfl
  | isIn ls => exact congrArg (Except.map Test.isIn) List.mapM_map

theorem Predicate.resolve_moved (r : RecordType) (n : Nat) (p : Predicate) :
    (p.moved n).resolve r = p.resolve r := by
  simp only [Predicate.resolve, Predicate.moved, Test.operator_map, Field.resolveTest_moved]

/-- **Resolving does not look at places.** -/
theorem Expr.resolve_moved (r : RecordType) (n : Nat) (e : Expr Predicate) :
    (e.map (Predicate.moved n)).resolve r = e.resolve r := by
  unfold Expr.resolve
  induction e with
  | leaf p => simp only [Expr.map, Expr.traverse, Predicate.resolve_moved]
  | and l r ihl ihr | or l r ihl ihr => simp only [Expr.map, Expr.traverse, ihl, ihr]

/-! ## Texts of filters -/

/-- What tokens demand does not depend on where they stand. -/
theorem Demand.ofTokens_moved (opened n : Nat) (ts : List Token) :
    ofTokens opened (ts.map (Token.moved n)) = ofTokens opened ts :=
  ofTokens_map (f := Token.moved n) (fun _ => rfl) opened ts

/-- The characters are the tokens of a filter, which the record type resolves to `q`. -/
def Spells (r : RecordType) (sym : Symbol) (cs : List Char) (q : Expr ResolvedPredicate)
    (d : Demand) : Prop :=
  ∃ ts e, Lexed.Consists 0 cs ts ∧ Derives sym ts e ∧ e.resolve r = .ok q ∧
    Demand.ofTokens 0 ts = d

namespace Spells

variable {r : RecordType} {sym : Symbol} {cs ds : List Char} {q q' : Expr ResolvedPredicate}
  {d d' : Demand}

/-- A filter that compiles is spelled by its text. -/
theorem of_compileFilter {limits : Limits} {text : String} {c : Condition}
    (h : compileFilter r limits text = .ok c) :
    ∃ q, Spells r .expr text.toList q (.ofText text) ∧ c = .ofExpr q := by
  obtain ⟨e, q, he, hq, rfl⟩ := compileFilter_eq_ok.mp h
  obtain ⟨hfailure, hderives, -⟩ := Parser.parse_eq_ok_iff.mp he
  refine ⟨q, ⟨(Lexed.ofText text).tokens, e, ?_, hderives, hq, rfl⟩, rfl⟩
  exact congrArg (Lexed.mk _) hfailure

/-- The text of a filter compiles, if the limits leave room for it. -/
theorem compileFilter {limits : Limits} {text : String} (h : Spells r .expr text.toList q d)
    (hd : limits.Allow d) : compileFilter r limits text = .ok (.ofExpr q) := by
  obtain ⟨ts, e, hts, hderives, hq, rfl⟩ := h
  have hlexed : Lexed.ofText text = ⟨ts, none⟩ := hts
  refine compileFilter_eq_ok.mpr ⟨e, q, Parser.parse_eq_ok_iff.mpr ?_, hq, rfl⟩
  rw [Demand.ofText, hlexed]
  exact ⟨rfl, hderives, hd⟩

theorem ofTerm (h : Spells r .term cs q d) : Spells r .andExpr cs q d := by
  obtain ⟨ts, e, hts, hderives, hq, hd⟩ := h
  exact ⟨ts, e, hts, .ofTerm hderives, hq, hd⟩

theorem ofAndExpr (h : Spells r .andExpr cs q d) : Spells r .expr cs q d := by
  obtain ⟨ts, e, hts, hderives, hq, hd⟩ := h
  exact ⟨ts, e, hts, .ofAndExpr hderives, hq, hd⟩

/-- In parentheses, a filter is one group deeper. -/
theorem parenthesized (h : Spells r .expr cs q d) :
    Spells r .term ('(' :: (cs ++ [')'])) q d.grouped := by
  obtain ⟨ts, e, hts, hderives, hq, rfl⟩ := h
  have hmoved := hderives.moved 1
  refine ⟨_, _, hts.parenthesized Lexed.consists_nil, .group rfl hmoved rfl,
    (Expr.resolve_moved r 1 e).trans hq, ?_⟩
  rw [← List.cons_append, Demand.ofTokens_group hmoved rfl rfl, Demand.ofTokens_grouped hmoved,
    Demand.ofTokens_moved]

/-- AND joins two filters, each of which keeps its meaning. -/
theorem and (h : Spells r .andExpr cs q d) (h' : Spells r .term ds q' d') :
    Spells r .andExpr (cs ++ ' ' :: ("AND".toList ++ ' ' :: ds)) (.and q q') (d.beside d') := by
  obtain ⟨ts, e, hts, hderives, hq, rfl⟩ := h
  obtain ⟨us, e', hus, hderives', hq', rfl⟩ := h'
  have hword : Lexed.Consists 0 "AND".toList [⟨.and, "AND".toList, false, 0⟩] := by decide +kernel
  have hkind : TokenKind.and ∈ Demand.neutralKinds := by decide
  obtain ⟨m, n, htext⟩ := hts.between hword hus
  refine ⟨_, _, htext, .and hderives rfl (hderives'.moved n), ?_, ?_⟩
  · exact bind_eq_ok.mpr ⟨q, hq, bind_eq_ok.mpr ⟨q', (Expr.resolve_moved r n e').trans hq', rfl⟩⟩
  · rw [Demand.ofTokens_joined hderives hkind, Demand.ofTokens_moved]

/-- OR joins two filters, each of which keeps its meaning. -/
theorem or (h : Spells r .expr cs q d) (h' : Spells r .andExpr ds q' d') :
    Spells r .expr (cs ++ ' ' :: ("OR".toList ++ ' ' :: ds)) (.or q q') (d.beside d') := by
  obtain ⟨ts, e, hts, hderives, hq, rfl⟩ := h
  obtain ⟨us, e', hus, hderives', hq', rfl⟩ := h'
  have hword : Lexed.Consists 0 "OR".toList [⟨.or, "OR".toList, false, 0⟩] := by decide +kernel
  have hkind : TokenKind.or ∈ Demand.neutralKinds := by decide
  obtain ⟨m, n, htext⟩ := hts.between hword hus
  refine ⟨_, _, htext, .or hderives rfl (hderives'.moved n), ?_, ?_⟩
  · exact bind_eq_ok.mpr ⟨q, hq, bind_eq_ok.mpr ⟨q', (Expr.resolve_moved r n e').trans hq', rfl⟩⟩
  · rw [Demand.ofTokens_joined hderives hkind, Demand.ofTokens_moved]

end Spells

/-! ## Composition -/

theorem Condition.ofExpr_and (q q' : Expr ResolvedPredicate) :
    ofExpr (.and q q') = ⟨"(" ++ (ofExpr q).fragment ++ " AND " ++ (ofExpr q').fragment ++ ")",
      (ofExpr q).values ++ (ofExpr q').values⟩ :=
  congrArg (Condition.mk _) (Condition.values_and q q')

theorem Condition.ofExpr_or (q q' : Expr ResolvedPredicate) :
    ofExpr (.or q q') = ⟨"(" ++ (ofExpr q).fragment ++ " OR " ++ (ofExpr q').fragment ++ ")",
      (ofExpr q).values ++ (ofExpr q').values⟩ :=
  congrArg (Condition.mk _) (Condition.values_or q q')

/-- **Filters compose**: two filters that compile can be put in parentheses and
joined, and their conditions are joined alike. Parentheses alone change nothing.
The limits have to allow for what the two demand together, and for one group more. -/
theorem compileFilter_joined {r : RecordType} {limits₁ limits₂ : Limits} {s t : String}
    {c₁ c₂ : Condition} (h₁ : compileFilter r limits₁ s = .ok c₁)
    (h₂ : compileFilter r limits₂ t = .ok c₂) :
    (∀ limits : Limits, limits.Allow ((Demand.ofText s).beside (Demand.ofText t)).grouped →
      compileFilter r limits ("(" ++ s ++ ") AND (" ++ t ++ ")") =
          .ok ⟨"(" ++ c₁.fragment ++ " AND " ++ c₂.fragment ++ ")", c₁.values ++ c₂.values⟩ ∧
        compileFilter r limits ("(" ++ s ++ ") OR (" ++ t ++ ")") =
          .ok ⟨"(" ++ c₁.fragment ++ " OR " ++ c₂.fragment ++ ")", c₁.values ++ c₂.values⟩) ∧
      ∀ limits : Limits, limits.Allow (Demand.ofText s).grouped →
        compileFilter r limits ("(" ++ s ++ ")") = .ok c₁ := by
  obtain ⟨q₁, hs, rfl⟩ := Spells.of_compileFilter h₁
  obtain ⟨q₂, ht, rfl⟩ := Spells.of_compileFilter h₂
  have hs' := hs.parenthesized.ofTerm
  have ht' := ht.parenthesized
  refine ⟨fun limits hlimits => ?_, fun limits hlimits => ?_⟩
  · rw [← Demand.grouped_beside] at hlimits
    rw [← Condition.ofExpr_and, ← Condition.ofExpr_or]
    constructor
    · refine Spells.compileFilter ?_ hlimits
      simpa [String.toList_append] using (hs'.and ht').ofAndExpr
    · refine Spells.compileFilter ?_ hlimits
      simpa [String.toList_append] using hs'.ofAndExpr.or ht'.ofTerm
  · refine Spells.compileFilter ?_ hlimits
    simpa [String.toList_append] using hs'.ofAndExpr

/-- A quote at the edge, a number before a parenthesis, and an OR that stays in its group. -/
theorem compileFilter_joined_edges :
    let r : RecordType := ⟨"user", none, none,
      [⟨"name", "u.name", .string, .allFor .string, false⟩,
        ⟨"age", "u.age", .integer, .allFor .integer, false⟩]⟩
    let s := "name = '''' OR age > 5"
    let t := "age $in (1, 2) AND (name $nn)"
    let c₁ : Condition := ⟨"(u.name = ? OR u.age > ?)", [.string "'", .integer 5]⟩
    let c₂ : Condition := ⟨"(u.age IN (?, ?) AND u.name IS NOT NULL)", [.integer 1, .integer 2]⟩
    let limits : Limits := { predicates := 4, depth := 2, listValues := 2 }
    compileFilter r {} s = .ok c₁ ∧ compileFilter r {} t = .ok c₂ ∧
      Demand.ofText s = ⟨2, 0, 0⟩ ∧ Demand.ofText t = ⟨2, 1, 2⟩ ∧
      compileFilter r limits ("(" ++ s ++ ") AND (" ++ t ++ ")") =
        .ok ⟨"((u.name = ? OR u.age > ?) AND (u.age IN (?, ?) AND u.name IS NOT NULL))",
          [.string "'", .integer 5, .integer 1, .integer 2]⟩ ∧
      compileFilter r limits ("(" ++ s ++ ")") = .ok c₁ := by
  intro r s t c₁ c₂ limits
  have h₁ : compileFilter r {} s = .ok c₁ := by decide +kernel
  have h₂ : compileFilter r {} t = .ok c₂ := by decide +kernel
  have hs : Demand.ofText s = ⟨2, 0, 0⟩ := by decide +kernel
  have ht : Demand.ofText t = ⟨2, 1, 2⟩ := by decide +kernel
  obtain ⟨hjoined, hgrouped⟩ := compileFilter_joined h₁ h₂
  rw [hs] at hjoined hgrouped
  rw [ht] at hjoined
  have hroom : limits.Allow ((Demand.mk 2 0 0).beside ⟨2, 1, 2⟩).grouped := by
    constructor <;> decide
  have hroom' : limits.Allow (Demand.mk 2 0 0).grouped := by
    constructor <;> decide
  exact ⟨h₁, h₂, hs, ht, (hjoined limits hroom).1, hgrouped limits hroom'⟩

end RecordQuery
