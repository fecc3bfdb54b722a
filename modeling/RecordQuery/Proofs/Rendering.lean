import RecordQuery.Proofs.Placeholders

/-!
# Rendered conditions

A condition is rendered character by character, and only its placeholders change.
So it is rendered part by part as well, if every part goes on with the number of
the first placeholder that is not in the parts before it.
-/

namespace RecordQuery

open Outcome Text

/-- In PostgreSQL a placeholder has a number. -/
theorem Dialect.toList_placeholder_postgres (index : Nat) :
    (Dialect.placeholder .postgres index).toList = '$' :: numeral (index % UInt64.size) := by
  have hdollar : "$".toList = ['$'] := rfl
  rw [placeholder, String.toList_append, hdollar, natText, String.toList_ofList,
    List.singleton_append]

/-- What a placeholder is made of. -/
theorem Dialect.mem_placeholder {d : Dialect} {index : Nat} {c : Char}
    (h : c ∈ (d.placeholder index).toList) : c = '?' ∨ c = '$' ∨ c.isDigit = true := by
  have hmark : "?".toList = ['?'] := rfl
  cases d with
  | sqlite | duckdb =>
    change c ∈ "?".toList at h
    rw [hmark, List.mem_singleton] at h
    exact .inl h
  | postgres =>
    rw [toList_placeholder_postgres] at h
    rcases List.mem_cons.mp h with h | h
    · exact .inr (.inl h)
    · exact .inr (.inr (isDigit_of_mem_numeral h))

/-- Every column of a resolved filter has been checked with its declaration. -/
theorem Expr.safe_columns {decl : RecordDeclaration} {r : RecordType} {e : Expr Predicate}
    {q : Expr ResolvedPredicate} (hr : decl.resolve = .ok r) (hq : e.resolve r = .ok q) :
    ∀ p ∈ q.leaves, isSafeSql p.field.column.toList = true := by
  intro p hp
  obtain ⟨p₀, -, hres⟩ := exists_of_mem_right (Expr.resolves_of_resolve hq).leaves hp
  exact RecordType.safe_column hr hres.field

namespace Condition

/-! ## Characters -/

theorem renderChars_append (d : Dialect) (index : Nat) (cs ds : List Char) :
    renderChars d index (cs ++ ds) =
      renderChars d index cs ++ renderChars d (index + cs.count '?') ds := by
  induction cs generalizing index with
  | nil => rfl
  | cons c cs ih =>
    by_cases h : c = '?'
    · subst h
      simp only [List.cons_append, renderChars, if_true, ih, List.count_cons_self,
        List.append_assoc, Nat.add_assoc, Nat.add_comm 1]
    · simp only [List.cons_append, renderChars, if_neg h, ih, List.count_cons_of_ne h]

/-- Text without placeholders stays as it is. -/
theorem renderChars_of_not_mem {d : Dialect} {index : Nat} {cs : List Char} (h : '?' ∉ cs) :
    renderChars d index cs = cs := by
  induction cs with
  | nil => rfl
  | cons c cs ih =>
    have hc : c ≠ '?' := fun hc => h (hc ▸ List.mem_cons_self)
    rw [renderChars, if_neg hc, ih (List.not_mem_of_not_mem_cons h)]

/-- What is rendered has been there, or belongs to a placeholder. -/
theorem mem_renderChars {d : Dialect} {index : Nat} {cs : List Char} {c : Char}
    (h : c ∈ renderChars d index cs) : c ∈ cs ∨ ∃ i, c ∈ (d.placeholder i).toList := by
  induction cs generalizing index with
  | nil => cases h
  | cons a cs ih =>
    rw [renderChars] at h
    split at h
    · rcases List.mem_append.mp h with h | h
      · exact .inr ⟨index, h⟩
      · exact (ih h).imp_left (List.mem_cons_of_mem a)
    · rcases List.mem_cons.mp h with rfl | h
      · exact .inl List.mem_cons_self
      · exact (ih h).imp_left (List.mem_cons_of_mem a)

/-! ## Trees -/

/-- The text of a tree in a dialect, its first placeholder with the number `index`. -/
def rendered (d : Dialect) (index : Nat) (e : Expr ResolvedPredicate) : List Char :=
  renderChars d index (fragmentOf e).toList

theorem toList_render_ofExpr (e : Expr ResolvedPredicate) (d : Dialect) (index : Nat) :
    ((ofExpr e).render d index).toList = rendered d index e :=
  String.toList_ofList

theorem count_testFragment {column : String} (h : '?' ∉ column.toList) (t : Test Datum) :
    (testFragment column t).toList.count '?' = t.values.length := by
  rw [List.count_eq_length_filter, filter_testFragment h, List.length_replicate]

theorem count_fragmentOf {e : Expr ResolvedPredicate}
    (h : ∀ p ∈ e.leaves, '?' ∉ p.field.column.toList) :
    (fragmentOf e).toList.count '?' = (ofExpr e).values.length := by
  induction e with
  | leaf p => rw [fragmentOf, count_testFragment (h p List.mem_cons_self), values_leaf]
  | and l r ihl ihr =>
    obtain ⟨hl, hr⟩ := List.forall_mem_append.mp h
    rw [← List.append_nil (fragmentOf _).toList, toList_fragmentOf_and, values_and]
    simp [ihl hl, ihr hr]
  | or l r ihl ihr =>
    obtain ⟨hl, hr⟩ := List.forall_mem_append.mp h
    rw [← List.append_nil (fragmentOf _).toList, toList_fragmentOf_or, values_or]
    simp [ihl hl, ihr hr]

/-- A leaf goes on from its column with what is asked of it. -/
theorem rendered_leaf {d : Dialect} {index : Nat} {p : ResolvedPredicate}
    (h : '?' ∉ p.field.column.toList) :
    rendered d index (.leaf p) = p.field.column.toList ++
      ' ' :: renderChars d index (asked p.test.operator p.test.values.length) := by
  have hspace : ' ' ≠ '?' := by decide
  rw [rendered, fragmentOf, toList_testFragment, renderChars_append, renderChars_of_not_mem h,
    List.count_eq_zero.mpr h, Nat.add_zero, renderChars, if_neg hspace]

/-- Two sides with a word between them: the right one goes on where the left one ends. -/
theorem renderChars_group {d : Dialect} {index : Nat} {word : List Char} (hword : '?' ∉ word)
    (left right : List Char) :
    renderChars d index ('(' :: (left ++ (word ++ (right ++ [')'])))) =
      '(' :: (renderChars d index left ++
        (word ++ (renderChars d (index + left.count '?') right ++ [')']))) := by
  have hopen : '(' ≠ '?' := by decide
  have hclose : '?' ∉ [')'] := by decide
  rw [renderChars, if_neg hopen, renderChars_append, renderChars_append,
    renderChars_of_not_mem hword, List.count_eq_zero.mpr hword, Nat.add_zero, renderChars_append,
    renderChars_of_not_mem hclose]

variable {d : Dialect} {index : Nat} {l r : Expr ResolvedPredicate}

theorem rendered_and (h : ∀ p ∈ l.leaves, '?' ∉ p.field.column.toList) :
    rendered d index (.and l r) = '(' :: (rendered d index l ++
      (" AND ".toList ++ (rendered d (index + (ofExpr l).values.length) r ++ [')']))) := by
  have hword : '?' ∉ " AND ".toList := by decide
  rw [rendered, ← List.append_nil (fragmentOf _).toList, toList_fragmentOf_and,
    renderChars_group hword, count_fragmentOf h]
  rfl

theorem rendered_or (h : ∀ p ∈ l.leaves, '?' ∉ p.field.column.toList) :
    rendered d index (.or l r) = '(' :: (rendered d index l ++
      (" OR ".toList ++ (rendered d (index + (ofExpr l).values.length) r ++ [')']))) := by
  have hword : '?' ∉ " OR ".toList := by decide
  rw [rendered, ← List.append_nil (fragmentOf _).toList, toList_fragmentOf_or,
    renderChars_group hword, count_fragmentOf h]
  rfl

/-- The word between two sides. -/
def IsConnective (word : List Char) : Prop :=
  word = " AND ".toList ∨ word = " OR ".toList

/-- Induction along rendered trees: what holds of every leaf, and passes from two sides
to the group of them, holds of every tree. A side is known by the number that it goes
on from, its leaves and its text; which of the two connectives joins the sides is not. -/
theorem rendered_induction {motive : Nat → List ResolvedPredicate → List Char → Prop}
    (leaf : ∀ {index p}, isSafeSql p.field.column.toList = true →
      motive index [p] (rendered d index (.leaf p)))
    (group : ∀ {index ls rs left right word}, IsConnective word → motive index ls left →
      motive (index + (ls.flatMap fun p => p.test.values).length) rs right →
      motive index (ls ++ rs) ('(' :: (left ++ (word ++ (right ++ [')'])))))
    {e : Expr ResolvedPredicate} (h : ∀ p ∈ e.leaves, isSafeSql p.field.column.toList = true) :
    motive index e.leaves (rendered d index e) := by
  have hmarks : ∀ {ps : List ResolvedPredicate},
      (∀ p ∈ ps, isSafeSql p.field.column.toList = true) → ∀ p ∈ ps, '?' ∉ p.field.column.toList :=
    fun hsafe p hp => (not_mem_of_isSafeSql (hsafe p hp)).1
  induction e generalizing index with
  | leaf p => exact leaf (h p List.mem_cons_self)
  | and l r ihl ihr =>
    obtain ⟨hl, hr⟩ := List.forall_mem_append.mp h
    rw [rendered_and (hmarks hl), Expr.leaves]
    exact group (.inl rfl) (ihl hl) (ihr hr)
  | or l r ihl ihr =>
    obtain ⟨hl, hr⟩ := List.forall_mem_append.mp h
    rw [rendered_or (hmarks hl), Expr.leaves]
    exact group (.inr rfl) (ihl hl) (ihr hr)

end Condition

/-! ## Statements -/

/-- The statement of a query: its clauses one after the other. -/
theorem Query.sql_applyTo (q : Query) (d : Dialect) (r : RecordType) :
    (q.applyTo (Statement.ofRecord d r)).sql =
      "SELECT " ++ r.selectList ++ " FROM " ++ r.source ++
        Statement.clause " WHERE " (q.condition.map fun c => c.render d 1) ++
        Statement.clause " ORDER BY " (if q.order.isEmpty then none else some (d.sortKeys q.order)) ++
        (" " ++ d.paging q.page) := by
  obtain ⟨condition, order, page⟩ := q
  cases condition with
  | none => cases order <;> rfl
  | some c => cases order <;> rfl

end RecordQuery
