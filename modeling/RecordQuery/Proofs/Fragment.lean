import RecordQuery.Sql.Condition

/-!
# The text of a condition

What is asked of a column depends on the operator and on the number of its
values, never on the values. A fragment is made of such texts, parentheses and
connectives.
-/

namespace RecordQuery.Condition

/-- Placeholders between commas. -/
def marks : Nat → List Char
  | 0 => []
  | 1 => ['?']
  | n + 2 => '?' :: ',' :: ' ' :: marks (n + 1)

/-- The first word of what is asked of a column. -/
def verb : Operator → List Char
  | .null | .notNull => "IS".toList
  | .compare c => c.sql.toList
  | .pattern _ => "LIKE".toList
  | .isIn => "IN".toList

/-- What follows the first word, for an operator with `count` values. -/
def object (op : Operator) (count : Nat) : List Char :=
  match op with
  | .null => "NULL".toList
  | .notNull => "NOT NULL".toList
  | .compare _ => ['?']
  | .pattern _ => "? ESCAPE '\\'".toList
  | .isIn => '(' :: marks count ++ [')']

/-- What is asked of a column. -/
def asked (op : Operator) (count : Nat) : List Char :=
  verb op ++ ' ' :: object op count

theorem toList_marks (vs : List Datum) :
    (", ".intercalate (vs.map fun _ => "?")).toList = marks vs.length := by
  rw [String.toList_intercalate]
  induction vs with
  | nil => rfl
  | cons v vs ih =>
    cases vs with
    | nil => simp [marks]
    | cons w ws =>
      simp only [List.map_cons, List.intercalate_cons_cons] at ih ⊢
      rw [ih]
      rfl

theorem filter_marks (n : Nat) : (marks n).filter (· == '?') = List.replicate n '?' := by
  induction n using marks.induct with
  | case1 => rfl
  | case2 => rfl
  | case3 n ih =>
    rw [marks, List.filter_cons_of_pos rfl, List.filter_cons_of_neg (by decide),
      List.filter_cons_of_neg (by decide), ih]
    rfl

theorem mem_marks {n : Nat} {c : Char} (h : c ∈ marks n) : c = '?' ∨ c = ',' ∨ c = ' ' := by
  induction n using marks.induct with
  | case1 => cases h
  | case2 => exact .inl (List.mem_singleton.mp h)
  | case3 n ih =>
    simp only [marks, List.mem_cons] at h
    rcases h with h | h | h | h
    · exact .inl h
    · exact .inr (.inl h)
    · exact .inr (.inr h)
    · exact ih h

theorem marks_inj {n m : Nat} (h : marks n = marks m) : n = m := by
  have hfilter := congrArg (List.filter (· == '?')) h
  rw [filter_marks, filter_marks] at hfilter
  simpa using congrArg List.length hfilter

theorem rightParen_not_mem_marks (n : Nat) : ')' ∉ marks n := by
  intro h
  rcases mem_marks h with h | h | h <;> cases h

/-- Values only add their placeholders to what is asked without any, and commas. -/
theorem mem_asked {op : Operator} {n : Nat} {c : Char} (h : c ∈ asked op n) :
    c ∈ asked op 0 ∨ c = '?' ∨ c = ',' := by
  cases op with
  | null | notNull | compare | pattern => exact .inl h
  | isIn =>
    have hasked : asked .isIn n = "IN (".toList ++ (marks n ++ ")".toList) := rfl
    rw [hasked, List.mem_append, List.mem_append] at h
    rcases h with h | h | h
    · exact .inl (List.mem_append_left ")".toList h)
    · rcases mem_marks h with rfl | rfl | rfl
      · exact .inr (.inl rfl)
      · exact .inr (.inr rfl)
      · exact .inl (by decide)
    · exact .inl (List.mem_append_right "IN (".toList h)

theorem all_asked {p : Char → Bool} {op : Operator} (h : (asked op 0).all p = true)
    (hmark : p '?' = true) (hcomma : p ',' = true) (n : Nat) : (asked op n).all p = true := by
  refine List.all_eq_true.mpr fun c hc => ?_
  rcases mem_asked hc with hc | rfl | rfl
  · exact List.all_eq_true.mp h c hc
  · exact hmark
  · exact hcomma

/-- The text of a leaf is its column, a space, and what is asked of the column. -/
theorem toList_testFragment (column : String) (t : Test Datum) :
    (testFragment column t).toList =
      column.toList ++ ' ' :: asked t.operator t.values.length := by
  cases t with
  | null | notNull | pattern => rw [testFragment, String.toList_append]; rfl
  | compare c v =>
    rw [testFragment, String.toList_append, String.toList_append, String.toList_append,
      List.append_assoc, List.append_assoc]
    rfl
  | isIn vs =>
    rw [testFragment, String.toList_append, String.toList_append, String.toList_append,
      toList_marks, List.append_assoc, List.append_assoc]
    rfl

theorem toList_fragmentOf_and (l r : Expr ResolvedPredicate) (rest : List Char) :
    (fragmentOf (.and l r)).toList ++ rest =
      '(' :: ((fragmentOf l).toList ++ (" AND ".toList ++ ((fragmentOf r).toList ++ ')' :: rest))) := by
  simp [fragmentOf, String.toList_append]

theorem toList_fragmentOf_or (l r : Expr ResolvedPredicate) (rest : List Char) :
    (fragmentOf (.or l r)).toList ++ rest =
      '(' :: ((fragmentOf l).toList ++ (" OR ".toList ++ ((fragmentOf r).toList ++ ')' :: rest))) := by
  simp [fragmentOf, String.toList_append]

theorem values_leaf (p : ResolvedPredicate) : (ofExpr (.leaf p)).values = p.test.values :=
  List.flatMap_singleton ..

theorem values_and (l r : Expr ResolvedPredicate) :
    (ofExpr (.and l r)).values = (ofExpr l).values ++ (ofExpr r).values :=
  List.flatMap_append

theorem values_or (l r : Expr ResolvedPredicate) :
    (ofExpr (.or l r)).values = (ofExpr l).values ++ (ofExpr r).values :=
  List.flatMap_append

/-- Two leaves on one column are written alike if they have one operator and
equally many values. -/
theorem testFragment_congr (column : String) {t t' : Test Datum} (hop : t.operator = t'.operator)
    (hlen : t.values.length = t'.values.length) :
    testFragment column t = testFragment column t' := by
  rw [← String.toList_inj, toList_testFragment, toList_testFragment, hop, hlen]

end RecordQuery.Condition
