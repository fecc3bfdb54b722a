import RecordQuery.Proofs.Grammar

/-!
# What a filter demands of the limits

How many predicates a filter has, how deep its groups nest, and how many values
its longest list has. This is counted on the tokens, as groups leave no trace in
the expression. Filters that are joined demand what both of them do, and a filter
in parentheses demands one level more than without.
-/

namespace RecordQuery

theorem Expr.size_and {α : Type} (l r : Expr α) : (Expr.and l r).size = l.size + r.size :=
  List.length_append

theorem Expr.size_or {α : Type} (l r : Expr α) : (Expr.or l r).size = l.size + r.size :=
  List.length_append

/-- The least that the limits have to allow for a filter to be read. -/
structure Demand where
  predicates : Nat
  depth : Nat
  listValues : Nat
deriving DecidableEq, Repr

namespace Demand

/-- No tokens demand nothing. -/
def none : Demand := ⟨0, 0, 0⟩

/-- What two filters demand together. -/
def beside (a b : Demand) : Demand where
  predicates := a.predicates + b.predicates
  depth := max a.depth b.depth
  listValues := max a.listValues b.listValues

/-- What a filter demands in parentheses. -/
def grouped (a : Demand) : Demand :=
  { a with depth := a.depth + 1 }

/-- The number of values in the list that the tokens begin with, if it is in parentheses. -/
def listLength : List Token → Nat
  | [] => 0
  | t :: ts =>
    if t.kind = .leftParen then (ts.takeWhile (·.kind != .rightParen)).countP (·.kind == .comma) + 1
    else 0

/-- What the tokens demand if `opened` groups are open in front of them. Each
predicate has one operator, and each group has an operator in it. A list has none,
so its parentheses are no groups. -/
def ofTokens (opened : Nat) : List Token → Demand
  | [] => none
  | t :: ts =>
    match t.kind with
    | .leftParen => ofTokens (opened + 1) ts
    | .rightParen => ofTokens (opened - 1) ts
    | .operator op => beside ⟨1, opened, if op = .isIn then listLength ts else 0⟩ (ofTokens opened ts)
    | _ => ofTokens opened ts

/-- What a filter text demands. -/
def ofText (text : String) : Demand :=
  ofTokens 0 (Lexed.ofText text).tokens

end Demand

/-- The limits leave room for what is demanded. -/
structure Limits.Allow (limits : Limits) (d : Demand) : Prop where
  predicates : d.predicates ≤ limits.predicates
  depth : d.depth ≤ limits.depth
  listValues : d.listValues ≤ limits.listValues

namespace Demand

open Grammar

variable {a b : Demand} {t opening closing : Token} {ts us : List Token} {opened : Nat}
  {sym : Symbol} {e : Expr Predicate}

@[simp] theorem beside_none (a : Demand) : a.beside none = a := by
  simp [beside, none]

theorem beside_assoc (a b c : Demand) : (a.beside b).beside c = a.beside (b.beside c) := by
  simp [beside, Nat.add_assoc, Nat.max_assoc]

theorem grouped_beside (a b : Demand) : a.grouped.beside b.grouped = (a.beside b).grouped := by
  simp [beside, grouped, Nat.succ_max_succ]

/-! ## Tokens of a predicate -/

/-- The kinds of tokens that are neither operators nor parentheses. -/
def neutralKinds : List TokenKind :=
  [.name, .string, .number, .timestamp, .and, .or, .comma]

theorem ofTokens_cons_neutral (h : t.kind ∈ neutralKinds) (ts : List Token) :
    ofTokens opened (t :: ts) = ofTokens opened ts := by
  simp only [neutralKinds, List.mem_cons, List.not_mem_nil, or_false] at h
  rcases h with h | h | h | h | h | h | h
  all_goals simp [ofTokens, h]

theorem ofTokens_append_neutral (h : ∀ t ∈ ts, t.kind ∈ neutralKinds) (us : List Token) :
    ofTokens opened (ts ++ us) = ofTokens opened us := by
  induction ts with
  | nil => rfl
  | cons t ts ih =>
    obtain ⟨ht, hts⟩ := List.forall_mem_cons.mp h
    rw [List.cons_append, ofTokens_cons_neutral ht, ih hts]

theorem ofTokens_cons_operator {op : Operator} (h : t.kind = .operator op) (ts : List Token) :
    ofTokens opened (t :: ts) =
      beside ⟨1, opened, if op = .isIn then listLength ts else 0⟩ (ofTokens opened ts) := by
  simp [ofTokens, h]

theorem ofTokens_cons_leftParen (h : t.kind = .leftParen) (ts : List Token) :
    ofTokens opened (t :: ts) = ofTokens (opened + 1) ts := by
  simp [ofTokens, h]

theorem ofTokens_cons_rightParen (h : t.kind = .rightParen) (ts : List Token) :
    ofTokens opened (t :: ts) = ofTokens (opened - 1) ts := by
  simp [ofTokens, h]

theorem neutral_of_value {l : Literal} (h : Value t l) : t.kind ∈ neutralKinds := by
  cases h with
  | string kind | number kind | timestamp kind | boolean kind => simp [neutralKinds, kind]

theorem neutral_of_listed {ls : List Literal} (h : Listed ts ls) :
    ∀ t ∈ ts, t.kind ∈ neutralKinds := by
  induction h with
  | one value => simpa using neutral_of_value value
  | @more ts ls c v l _ comma value ih =>
    have hc : c.kind ∈ neutralKinds := by simp [neutralKinds, comma]
    simpa [or_imp, forall_and] using ⟨ih, hc, neutral_of_value value⟩

theorem listLength_value {l : Literal} (h : Value t l) (ts : List Token) :
    listLength (t :: ts) = 0 := by
  cases h with
  | string kind | number kind | timestamp kind | boolean kind => simp [listLength, kind]

/-- A list has one value more than commas. -/
theorem countP_comma_listed {ls : List Literal} (h : Listed ts ls) :
    ts.countP (·.kind == .comma) + 1 = ls.length := by
  induction h with
  | one value =>
    cases value with
    | string kind | number kind | timestamp kind | boolean kind => simp [kind]
  | more _ comma value ih =>
    cases value with
    | string kind | number kind | timestamp kind | boolean kind => simp [kind, comma, ← ih]

theorem listLength_list {ls : List Literal} (opens : opening.kind = .leftParen)
    (h : Listed ts ls) (closes : closing.kind = .rightParen) (us : List Token) :
    listLength (opening :: (ts ++ closing :: us)) = ls.length := by
  have hts : ∀ t ∈ ts, (t.kind != .rightParen) = true := by
    intro t ht
    have hk := neutral_of_listed h t ht
    rw [bne_iff_ne]
    rintro heq
    rw [heq] at hk
    exact absurd hk (by decide)
  rw [listLength, if_pos opens, List.takeWhile_append_of_pos hts]
  simp [closes, countP_comma_listed h]

/-- The parentheses of a list open and close again. -/
theorem ofTokens_values_append {ls : List Literal} (h : Values ts ls) (us : List Token) :
    ofTokens opened (ts ++ us) = ofTokens opened us := by
  cases h with
  | single value => exact ofTokens_cons_neutral (neutral_of_value value) us
  | list opens listed closes =>
    rw [List.cons_append, List.cons_append, List.append_assoc, ofTokens_cons_leftParen opens,
      ofTokens_append_neutral (neutral_of_listed listed), List.singleton_append,
      ofTokens_cons_rightParen closes, Nat.add_sub_cancel]

theorem listLength_values_append {ls : List Literal} (h : Values ts ls) (us : List Token) :
    listLength (ts ++ us) = listLength ts := by
  cases h with
  | single value => rw [List.singleton_append, listLength_value value, listLength_value value]
  | list opens listed closes =>
    rw [List.cons_append, List.cons_append, List.append_assoc, List.singleton_append,
      listLength_list opens listed closes, listLength_list opens listed closes]

/-- A predicate counts once, and lies in the groups that are open. Its values stand
behind its name and its operator. -/
theorem ofTokens_leaf_append {p : Predicate} (h : Leaf ts p) (opened : Nat) (us : List Token) :
    ofTokens opened (ts ++ us) =
      beside ⟨1, opened, listLength (ts.drop 2)⟩ (ofTokens opened us) := by
  have hname {n : Token} (kind : n.kind = .name) : n.kind ∈ neutralKinds := by
    simp [neutralKinds, kind]
  cases h with
  | null name op | notNull name op =>
    rw [List.cons_append, ofTokens_cons_neutral (hname name), List.singleton_append,
      ofTokens_cons_operator op]
    rfl
  | compare name op value | pattern name op value =>
    rw [List.cons_append, ofTokens_cons_neutral (hname name), List.cons_append,
      ofTokens_cons_operator op, List.singleton_append,
      ofTokens_cons_neutral (neutral_of_value value), List.drop_succ_cons, List.drop_succ_cons,
      List.drop_zero, listLength_value value []]
    rfl
  | isIn name op values =>
    rw [List.cons_append, ofTokens_cons_neutral (hname name), List.cons_append,
      ofTokens_cons_operator op, if_pos rfl, listLength_values_append values,
      ofTokens_values_append values]
    rfl

theorem ofTokens_leaf {p : Predicate} (h : Leaf ts p) (opened : Nat) :
    ofTokens opened ts = ⟨1, opened, listLength (ts.drop 2)⟩ := by
  rw [← List.append_nil ts, ofTokens_leaf_append h, List.append_nil, ofTokens, beside_none]

/-! ## Filters -/

/-- A filter demands the same wherever it stands, but for the groups around it;
what follows it demands what it would without. -/
theorem ofTokens_derives (h : Derives sym ts e) :
    ∃ d : Demand, d.predicates = e.size ∧ ∀ opened us,
      ofTokens opened (ts ++ us) = beside { d with depth := opened + d.depth } (ofTokens opened us) := by
  induction h with
  | predicate leaf =>
    exact ⟨⟨1, 0, _⟩, rfl, ofTokens_leaf_append leaf⟩
  | @group opening closing ts e opens inner closes ih =>
    obtain ⟨d, hsize, hd⟩ := ih
    refine ⟨d.grouped, hsize, fun opened us => ?_⟩
    rw [List.cons_append, List.cons_append, ofTokens_cons_leftParen opens, List.append_assoc, hd,
      List.singleton_append, ofTokens_cons_rightParen closes, Nat.add_sub_cancel, grouped,
      Nat.add_right_comm, Nat.add_assoc]
  | ofTerm _ ih | ofAndExpr _ ih => exact ih
  | and _ joins _ ihl ihr | or _ joins _ ihl ihr =>
    obtain ⟨d, hsize, hd⟩ := ihl
    obtain ⟨d', hsize', hd'⟩ := ihr
    refine ⟨d.beside d', ?_, fun opened us => ?_⟩
    · simp [beside, hsize, hsize', Expr.size, Expr.leaves]
    · rw [List.append_assoc, hd, List.cons_append,
        ofTokens_cons_neutral (by simp [neutralKinds, joins]), hd', ← beside_assoc]
      simp [beside, Nat.add_max_add_left]

/-- Each predicate of the expression counts. -/
theorem predicates_ofTokens (h : Derives sym ts e) : (ofTokens opened ts).predicates = e.size := by
  obtain ⟨d, hsize, hd⟩ := ofTokens_derives h
  rw [← List.append_nil ts, hd]
  exact hsize

theorem le_depth_ofTokens (h : Derives sym ts e) : opened ≤ (ofTokens opened ts).depth := by
  obtain ⟨d, -, hd⟩ := ofTokens_derives h
  rw [← List.append_nil ts, hd, ofTokens, beside_none]
  exact Nat.le_add_right ..

theorem ofTokens_append (h : Derives sym ts e) (us : List Token) :
    ofTokens opened (ts ++ us) = (ofTokens opened ts).beside (ofTokens opened us) := by
  obtain ⟨d, -, hd⟩ := ofTokens_derives h
  have hts := hd opened []
  rw [List.append_nil] at hts
  rw [hd, hts, ofTokens, beside_none]

/-- **Filters that are joined** demand what both of them do. -/
theorem ofTokens_joined (h : Derives sym ts e) (joins : t.kind ∈ neutralKinds) (us : List Token) :
    ofTokens opened (ts ++ t :: us) = (ofTokens opened ts).beside (ofTokens opened us) := by
  rw [ofTokens_append h, ofTokens_cons_neutral joins]

theorem ofTokens_group (h : Derives sym ts e) (opens : opening.kind = .leftParen)
    (closes : closing.kind = .rightParen) :
    ofTokens opened (opening :: ts ++ [closing]) = ofTokens (opened + 1) ts := by
  rw [List.cons_append, ofTokens_cons_leftParen opens, ofTokens_append h,
    ofTokens_cons_rightParen closes, ofTokens, beside_none]

/-- **A group** demands one level more than what it holds. -/
theorem ofTokens_grouped (h : Derives sym ts e) :
    ofTokens (opened + 1) ts = (ofTokens opened ts).grouped := by
  obtain ⟨d, -, hd⟩ := ofTokens_derives h
  rw [← List.append_nil ts, hd, hd, ofTokens, ofTokens, beside_none, beside_none, grouped,
    Nat.add_right_comm]

theorem listLength_map {f : Token → Token} (hf : ∀ t, (f t).kind = t.kind) (ts : List Token) :
    listLength (ts.map f) = listLength ts := by
  cases ts with
  | nil => rfl
  | cons t ts =>
    simp only [List.map_cons, listLength, hf, List.takeWhile_map, List.countP_map]
    simp only [Function.comp_def, hf]

/-- Only the kinds of the tokens matter. -/
theorem ofTokens_map {f : Token → Token} (hf : ∀ t, (f t).kind = t.kind) (opened : Nat)
    (ts : List Token) : ofTokens opened (ts.map f) = ofTokens opened ts := by
  induction ts generalizing opened with
  | nil => rfl
  | cons t ts ih => simp only [List.map_cons, ofTokens, hf, ih, listLength_map hf]

theorem listLength_le (ts : List Token) : listLength ts ≤ ts.length := by
  cases ts with
  | nil => exact Nat.le_refl 0
  | cons t ts =>
    rw [listLength]
    split
    · exact Nat.succ_le_succ
        (Nat.le_trans List.countP_le_length (List.takeWhile_prefix _).length_le)
    · exact Nat.zero_le _

/-- No token demands more than one of anything. -/
theorem ofTokens_le_length (opened : Nat) (ts : List Token) :
    (ofTokens opened ts).predicates ≤ ts.length ∧ (ofTokens opened ts).depth ≤ opened + ts.length ∧
      (ofTokens opened ts).listValues ≤ ts.length := by
  induction ts generalizing opened with
  | nil => exact ⟨Nat.le_refl 0, Nat.zero_le _, Nat.le_refl 0⟩
  | cons t ts ih =>
    have hlist := listLength_le ts
    obtain ⟨hp, hd, hl⟩ := ih opened
    obtain ⟨hp', hd', hl'⟩ := ih (opened + 1)
    obtain ⟨hp'', hd'', hl''⟩ := ih (opened - 1)
    rw [ofTokens, List.length_cons]
    split
    · exact ⟨by omega, by omega, by omega⟩
    · exact ⟨by omega, by omega, by omega⟩
    · refine ⟨by simp only [beside]; omega, by simp only [beside]; omega, ?_⟩
      simp only [beside]
      split <;> omega
    · exact ⟨by omega, by omega, by omega⟩

end Demand

end RecordQuery
