import Mathlib.Data.List.Forall2
import RecordQuery.Filter.Parser
import RecordQuery.Schema.Field

/-!
# The grammar of filters

Which tokens make up a filter, and the expression that they write:

    expr      := and_expr (OR and_expr)*
    and_expr  := term (AND term)*
    term      := '(' expr ')' | predicate
    predicate := name ('$null' | '$nn' | op literal | '$in' values)
    values    := literal | '(' literal (',' literal)* ')'

A repetition is written by recursion on the left: that is the side on which
its tree grows, so AND and OR associate to the left. Nothing here looks at how
the tokens are read.
-/

namespace RecordQuery.Grammar

open Text

/-- A token that is a literal. Words are literals only if they are truth
values, in any case. -/
inductive Value : Token → Literal → Prop where
  | string {t : Token} (kind : t.kind = .string) :
      Value t ⟨.string, Literal.mergeQuotes t.lexeme, t.position⟩
  | number {t : Token} (kind : t.kind = .number) :
      Value t ⟨.number, Literal.mergeQuotes t.lexeme, t.position⟩
  | timestamp {t : Token} (kind : t.kind = .timestamp) :
      Value t ⟨.timestamp, Literal.mergeQuotes t.lexeme, t.position⟩
  | boolean {t : Token} (kind : t.kind = .name)
      (word : sameWord t.lexeme "true".toList = true ∨ sameWord t.lexeme "false".toList = true) :
      Value t ⟨.boolean, Literal.mergeQuotes t.lexeme, t.position⟩

/-- `literal (',' literal)*` -/
inductive Listed : List Token → List Literal → Prop where
  | one {v : Token} {l : Literal} (value : Value v l) : Listed [v] [l]
  | more {ts : List Token} {ls : List Literal} {c v : Token} {l : Literal}
      (before : Listed ts ls) (comma : c.kind = .comma) (value : Value v l) :
      Listed (ts ++ [c, v]) (ls ++ [l])

/-- `literal | '(' literal (',' literal)* ')'` -/
inductive Values : List Token → List Literal → Prop where
  | single {v : Token} {l : Literal} (value : Value v l) : Values [v] [l]
  | list {opening closing : Token} {ts : List Token} {ls : List Literal}
      (opens : opening.kind = .leftParen) (listed : Listed ts ls)
      (closes : closing.kind = .rightParen) : Values (opening :: ts ++ [closing]) ls

/-- A name, an operator, and as many literals as the operator takes. -/
inductive Leaf : List Token → Predicate → Prop where
  | null {n o : Token} (name : n.kind = .name) (op : o.kind = .operator .null) :
      Leaf [n, o] ⟨String.ofList n.lexeme, n.position, .null⟩
  | notNull {n o : Token} (name : n.kind = .name) (op : o.kind = .operator .notNull) :
      Leaf [n, o] ⟨String.ofList n.lexeme, n.position, .notNull⟩
  | compare {n o v : Token} {c : Comparison} {l : Literal} (name : n.kind = .name)
      (op : o.kind = .operator (.compare c)) (value : Value v l) :
      Leaf [n, o, v] ⟨String.ofList n.lexeme, n.position, .compare c l⟩
  | pattern {n o v : Token} {place : LikePattern.Place} {l : Literal} (name : n.kind = .name)
      (op : o.kind = .operator (.pattern place)) (value : Value v l) :
      Leaf [n, o, v] ⟨String.ofList n.lexeme, n.position, .pattern place l⟩
  | isIn {n o : Token} {ts : List Token} {ls : List Literal} (name : n.kind = .name)
      (op : o.kind = .operator .isIn) (values : Values ts ls) :
      Leaf (n :: o :: ts) ⟨String.ofList n.lexeme, n.position, .isIn ls⟩

/-- What stands to the left of `:=` for the kinds of expressions. -/
inductive Symbol where
  | expr
  | andExpr
  | term

/-- The tokens are derived from the symbol, and write the expression. -/
inductive Derives : Symbol → List Token → Expr Predicate → Prop where
  | predicate {ts : List Token} {p : Predicate} (leaf : Leaf ts p) : Derives .term ts (.leaf p)
  | group {opening closing : Token} {ts : List Token} {e : Expr Predicate}
      (opens : opening.kind = .leftParen) (inner : Derives .expr ts e)
      (closes : closing.kind = .rightParen) : Derives .term (opening :: ts ++ [closing]) e
  | ofTerm {ts : List Token} {e : Expr Predicate} (term : Derives .term ts e) :
      Derives .andExpr ts e
  | and {ts us : List Token} {t : Token} {l r : Expr Predicate} (left : Derives .andExpr ts l)
      (joins : t.kind = .and) (right : Derives .term us r) :
      Derives .andExpr (ts ++ t :: us) (.and l r)
  | ofAndExpr {ts : List Token} {e : Expr Predicate} (conditions : Derives .andExpr ts e) :
      Derives .expr ts e
  | or {ts us : List Token} {t : Token} {l r : Expr Predicate} (left : Derives .expr ts l)
      (joins : t.kind = .or) (right : Derives .andExpr us r) :
      Derives .expr (ts ++ t :: us) (.or l r)

/-- A filter is never empty. -/
theorem Derives.ne_nil {s : Symbol} {ts : List Token} {e : Expr Predicate}
    (h : Derives s ts e) : ts ≠ [] := by
  induction h with
  | predicate leaf => cases leaf <;> simp
  | group => simp
  | ofTerm _ ih => exact ih
  | and => simp
  | ofAndExpr _ ih => exact ih
  | or => simp

/-! ## Literals -/

theorem Listed.length_pos {ts : List Token} {ls : List Literal} (h : Listed ts ls) :
    0 < ls.length := by
  cases h with
  | one => exact Nat.one_pos
  | more => simp

theorem Values.length_pos {ts : List Token} {ls : List Literal} (h : Values ts ls) :
    0 < ls.length := by
  cases h with
  | single => exact Nat.one_pos
  | list _ listed => exact listed.length_pos

/-- The parser takes a token for a literal if and only if it is one. -/
theorem literal?_eq_some_iff {t : Token} {l : Literal} : t.literal? = some l ↔ Value t l := by
  constructor
  · intro h
    unfold Token.literal? at h
    simp only at h
    split at h
    · rename_i hk
      cases h
      exact .string hk
    · rename_i hk
      cases h
      exact .number hk
    · rename_i hk
      cases h
      exact .timestamp hk
    · rename_i hk
      split at h
      · rename_i hw
        cases h
        exact .boolean hk (by simpa using hw)
      · cases h
    · cases h
  · intro h
    cases h with
    | string kind => simp [Token.literal?, kind]
    | number kind => simp [Token.literal?, kind]
    | timestamp kind => simp [Token.literal?, kind]
    | boolean kind word => rcases word with hw | hw <;> simp at hw <;> simp [Token.literal?, kind, hw]

theorem Value.position {t : Token} {l : Literal} (h : Value t l) : l.position = t.position := by
  cases h <;> rfl

/-! ## The literals of a tree, in the order of the text -/

/-- The tokens that are literals. -/
def literalsOf (ts : List Token) : List Literal :=
  ts.filterMap Token.literal?

theorem literalsOf_append (ts us : List Token) :
    literalsOf (ts ++ us) = literalsOf ts ++ literalsOf us :=
  List.filterMap_append

theorem Value.literalsOf_cons {t : Token} {l : Literal} (h : Value t l) (ts : List Token) :
    literalsOf (t :: ts) = l :: literalsOf ts :=
  List.filterMap_cons_some (literal?_eq_some_iff.mpr h)

theorem literalsOf_cons_of_kind {t : Token} (h : t.kind ≠ .string ∧ t.kind ≠ .number ∧
    t.kind ≠ .timestamp ∧ t.kind ≠ .name) (ts : List Token) :
    literalsOf (t :: ts) = literalsOf ts := by
  refine List.filterMap_cons_none (Option.eq_none_iff_forall_ne_some.mpr fun l hl => ?_)
  cases literal?_eq_some_iff.mp hl with
  | string kind => exact h.1 kind
  | number kind => exact h.2.1 kind
  | timestamp kind => exact h.2.2.1 kind
  | boolean kind => exact h.2.2.2 kind

/-- A name is a literal only if it is a reserved word. -/
theorem literalsOf_cons_of_name {t : Token} (kind : t.kind = .name)
    (h : isReservedWord t.lexeme = false) (ts : List Token) :
    literalsOf (t :: ts) = literalsOf ts := by
  refine List.filterMap_cons_none ?_
  simp only [isReservedWord, Bool.or_eq_false_iff] at h
  simp [Token.literal?, kind, h.1.2, h.2]

theorem Listed.literalsOf {ts : List Token} {ls : List Literal} (h : Listed ts ls) :
    literalsOf ts = ls := by
  induction h with
  | one value => exact value.literalsOf_cons []
  | @more ts ls c v l _ comma value ih =>
    rw [literalsOf_append, ih, literalsOf_cons_of_kind (by simp [comma]),
      value.literalsOf_cons]
    rfl

theorem Values.literalsOf {ts : List Token} {ls : List Literal} (h : Values ts ls) :
    literalsOf ts = ls := by
  cases h with
  | single value => exact value.literalsOf_cons []
  | list opens listed closes =>
    rw [List.cons_append, literalsOf_cons_of_kind (by simp [opens]), literalsOf_append,
      listed.literalsOf, literalsOf_cons_of_kind (by simp [closes])]
    exact List.append_nil _

theorem Leaf.literalsOf {ts : List Token} {p : Predicate} (h : Leaf ts p)
    (hfield : isReservedWord p.field.toList = false) : literalsOf ts = p.test.values := by
  cases h with
  | null name op | notNull name op =>
    rw [literalsOf_cons_of_name name (by simpa using hfield),
      literalsOf_cons_of_kind (by simp [op])]
    rfl
  | compare name op value | pattern name op value =>
    rw [literalsOf_cons_of_name name (by simpa using hfield),
      literalsOf_cons_of_kind (by simp [op]), value.literalsOf_cons]
    rfl
  | isIn name op values =>
    rw [literalsOf_cons_of_name name (by simpa using hfield),
      literalsOf_cons_of_kind (by simp [op]), values.literalsOf]
    rfl

/-- **Tree order is source order**: where no field has a reserved name, the
literals of the tree are those of the tokens, one after the other. -/
theorem Derives.literalsOf {s : Symbol} {ts : List Token} {e : Expr Predicate}
    (h : Derives s ts e) (hfields : ∀ p ∈ e.leaves, isReservedWord p.field.toList = false) :
    literalsOf ts = e.leaves.flatMap (·.test.values) := by
  induction h with
  | predicate leaf =>
    rw [leaf.literalsOf (hfields _ (List.mem_singleton.mpr rfl))]
    simp [Expr.leaves]
  | group opens _ closes ih =>
    rw [List.cons_append, literalsOf_cons_of_kind (by simp [opens]), literalsOf_append,
      ih hfields, literalsOf_cons_of_kind (by simp [closes])]
    exact List.append_nil _
  | ofTerm _ ih => exact ih hfields
  | ofAndExpr _ ih => exact ih hfields
  | and _ joins _ ihl ihr | or _ joins _ ihl ihr =>
    -- the connective is no literal, so the two sides follow each other
    rw [Expr.leaves] at hfields ⊢
    rw [literalsOf_append, literalsOf_cons_of_kind (by simp [joins]), List.flatMap_append,
      ihl fun p hp => hfields p (List.mem_append_left _ hp),
      ihr fun p hp => hfields p (List.mem_append_right _ hp)]

theorem exists_of_mem_literalsOf {ts : List Token} {l : Literal} (h : l ∈ literalsOf ts) :
    ∃ t ∈ ts, Value t l := by
  obtain ⟨t, ht, hl⟩ := List.mem_filterMap.mp h
  exact ⟨t, ht, literal?_eq_some_iff.mp hl⟩

theorem Leaf.exists_value {ts : List Token} {p : Predicate} {l : Literal} (h : Leaf ts p)
    (hl : l ∈ p.test.values) : ∃ t ∈ ts, Value t l := by
  cases h with
  | null | notNull => cases hl
  | compare _ _ value | pattern _ _ value =>
    obtain rfl := List.mem_singleton.mp hl
    exact ⟨_, by simp, value⟩
  | @isIn n o ts ls _ _ values =>
    have hmem : l ∈ Grammar.literalsOf ts := values.literalsOf.symm ▸ hl
    obtain ⟨t, ht, value⟩ := exists_of_mem_literalsOf hmem
    exact ⟨t, by simp [ht], value⟩

/-- The literals of a tree are tokens of the text, whatever its fields are called. -/
theorem Derives.exists_value {s : Symbol} {ts : List Token} {e : Expr Predicate}
    (h : Derives s ts e) {p : Predicate} (hp : p ∈ e.leaves) {l : Literal}
    (hl : l ∈ p.test.values) : ∃ t ∈ ts, Value t l := by
  induction h with
  | predicate leaf =>
    obtain rfl := List.mem_singleton.mp hp
    exact leaf.exists_value hl
  | group _ _ _ ih =>
    obtain ⟨t, ht, value⟩ := ih hp
    exact ⟨t, by simp [ht], value⟩
  | ofTerm _ ih | ofAndExpr _ ih => exact ih hp
  | and _ _ _ ihl ihr | or _ _ _ ihl ihr =>
    rcases List.mem_append.mp hp with hp | hp
    · obtain ⟨t, ht, value⟩ := ihl hp
      exact ⟨t, List.mem_append_left _ ht, value⟩
    · obtain ⟨t, ht, value⟩ := ihr hp
      exact ⟨t, List.mem_append_right _ (List.mem_cons_of_mem _ ht), value⟩

/-! ## The names of a tree, in the order of the text -/

/-- A leaf begins with the name of its field. -/
theorem Leaf.exists_name {ts : List Token} {p : Predicate} (h : Leaf ts p) :
    ∃ n us, ts = n :: us ∧ n.kind = .name ∧ p.field = String.ofList n.lexeme ∧
      p.position = n.position := by
  cases h with
  | null name | notNull name => exact ⟨_, _, rfl, name, rfl, rfl⟩
  | compare name | pattern name | isIn name => exact ⟨_, _, rfl, name, rfl, rfl⟩

/-- The leaves of a tree are named by tokens of the text, one after the other. -/
theorem Derives.exists_names {s : Symbol} {ts : List Token} {e : Expr Predicate}
    (h : Derives s ts e) : ∃ ns, ns.Sublist ts ∧ List.Forall₂ (fun n p => n.kind = .name ∧
      p.field = String.ofList n.lexeme ∧ p.position = n.position) ns e.leaves := by
  induction h with
  | predicate leaf =>
    obtain ⟨n, us, rfl, hname⟩ := leaf.exists_name
    exact ⟨[n], List.singleton_sublist.mpr List.mem_cons_self, .cons hname .nil⟩
  | group _ _ _ ih =>
    obtain ⟨ns, hns, hleaves⟩ := ih
    exact ⟨ns, (hns.cons _).trans (List.sublist_append_left _ _), hleaves⟩
  | ofTerm _ ih | ofAndExpr _ ih => exact ih
  | and _ _ _ ihl ihr | or _ _ _ ihl ihr =>
    obtain ⟨ns, hns, hl⟩ := ihl
    obtain ⟨ms, hms, hr⟩ := ihr
    exact ⟨ns ++ ms, hns.append (hms.cons _), List.rel_append hl hr⟩

/-- Literals stand in the order of their tokens. -/
theorem pairwise_position_literalsOf {ts : List Token}
    (hts : ts.Pairwise fun a b => a.position < b.position) :
    (literalsOf ts).Pairwise fun k l => k.position < l.position := by
  refine List.pairwise_filterMap.mpr (hts.imp ?_)
  intro a b hab k hk l hl
  rw [(literal?_eq_some_iff.mp hk).position, (literal?_eq_some_iff.mp hl).position]
  exact hab

end RecordQuery.Grammar
