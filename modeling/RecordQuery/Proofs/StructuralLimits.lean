import Mathlib.Data.List.Chain
import RecordQuery.Proofs.ParserRuns
import RecordQuery.Proofs.TokenOrder
import RecordQuery.Proofs.WiderLimits

/-!
# Limits on the structure of a filter

A filter is bounded in three ways: in its predicates, in how deep its groups nest, and
in the values of its lists. The bounds are exact, but for one case: a value that stands
after `$in` without parentheses is a list too, and is let through even where lists may
have no values at all.
-/

namespace RecordQuery

open Grammar Outcome
open Demand (ofTokens listLength neutralKinds)

/-! ## What is bounded -/

namespace Grammar

/-- The tokens are derived from the symbol, with groups that nest at most `depth` deep. The
parentheses of a list are no group. -/
inductive Nested : Nat → Symbol → List Token → Expr Predicate → Prop where
  | predicate {depth : Nat} {ts : List Token} {p : Predicate} (leaf : Leaf ts p) :
      Nested depth .term ts (.leaf p)
  | group {depth : Nat} {opening closing : Token} {ts : List Token} {e : Expr Predicate}
      (opens : opening.kind = .leftParen) (inner : Nested depth .expr ts e)
      (closes : closing.kind = .rightParen) :
      Nested (depth + 1) .term (opening :: ts ++ [closing]) e
  | ofTerm {depth : Nat} {ts : List Token} {e : Expr Predicate} (term : Nested depth .term ts e) :
      Nested depth .andExpr ts e
  | and {depth : Nat} {ts us : List Token} {t : Token} {l r : Expr Predicate}
      (left : Nested depth .andExpr ts l) (joins : t.kind = .and)
      (right : Nested depth .term us r) : Nested depth .andExpr (ts ++ t :: us) (.and l r)
  | ofAndExpr {depth : Nat} {ts : List Token} {e : Expr Predicate}
      (conditions : Nested depth .andExpr ts e) : Nested depth .expr ts e
  | or {depth : Nat} {ts us : List Token} {t : Token} {l r : Expr Predicate}
      (left : Nested depth .expr ts l) (joins : t.kind = .or)
      (right : Nested depth .andExpr us r) : Nested depth .expr (ts ++ t :: us) (.or l r)

/-- Every list of the expression has at most `n` values. -/
def ListsWithin (n : Nat) (e : Expr Predicate) : Prop :=
  ∀ p ∈ e.leaves, ∀ ls, p.test = .isIn ls → ls.length ≤ n

/-- No parenthesis follows `$in`, so no list is in parentheses. -/
def Unbracketed (ts : List Token) : Prop :=
  ts.IsChain fun o t => o.kind = .operator .isIn → t.kind ≠ .leftParen

instance (ts : List Token) : Decidable (Unbracketed ts) :=
  inferInstanceAs (Decidable (ts.IsChain _))

end Grammar

/-- The limits suffice for the expression that the tokens write. -/
structure Limits.Suffice (limits : Limits) (ts : List Token) (e : Expr Predicate) : Prop where
  predicates : e.size ≤ limits.predicates
  depth : Nested limits.depth .expr ts e
  /-- A list may always have one value. -/
  listValues : ListsWithin (Nat.max limits.listValues 1) e
  /-- The value stands without parentheses where lists may have none. -/
  brackets : limits.listValues = 0 → Unbracketed ts

/-! ## Depth -/

namespace Grammar

variable {sym : Symbol} {ts us : List Token} {t : Token} {e l r : Expr Predicate} {depth n : Nat}

theorem Nested.derives (h : Nested depth sym ts e) : Derives sym ts e := by
  induction h with
  | predicate leaf => exact .predicate leaf
  | group opens _ closes ih => exact .group opens ih closes
  | ofTerm _ ih => exact .ofTerm ih
  | and _ joins _ ihl ihr => exact .and ihl joins ihr
  | ofAndExpr _ ih => exact .ofAndExpr ih
  | or _ joins _ ihl ihr => exact .or ihl joins ihr

theorem depth_joined (h : Derives sym ts e) (joins : t.kind ∈ neutralKinds) :
    (ofTokens 0 (ts ++ t :: us)).depth = max (ofTokens 0 ts).depth (ofTokens 0 us).depth :=
  congrArg Demand.depth (Demand.ofTokens_joined h joins us)

theorem depth_group {opening closing : Token} (h : Derives sym ts e)
    (opens : opening.kind = .leftParen) (closes : closing.kind = .rightParen) :
    (ofTokens 0 (opening :: ts ++ [closing])).depth = (ofTokens 0 ts).depth + 1 := by
  rw [Demand.ofTokens_group h opens closes, Demand.ofTokens_grouped h]
  rfl

theorem Nested.depth_le (h : Nested depth sym ts e) : (ofTokens 0 ts).depth ≤ depth := by
  induction h with
  | predicate leaf =>
    rw [Demand.ofTokens_leaf leaf]
    exact Nat.zero_le _
  | group opens inner closes ih =>
    rw [depth_group inner.derives opens closes]
    omega
  | ofTerm _ ih | ofAndExpr _ ih => exact ih
  | and left joins _ ihl ihr | or left joins _ ihl ihr =>
    rw [depth_joined left.derives (by simp [neutralKinds, joins])]
    omega

theorem Derives.nested (h : Derives sym ts e) (hd : (ofTokens 0 ts).depth ≤ depth) :
    Nested depth sym ts e := by
  induction h generalizing depth with
  | predicate leaf => exact .predicate leaf
  | group opens inner closes ih =>
    rw [depth_group inner opens closes] at hd
    cases depth with
    | zero => omega
    | succ depth => exact .group opens (ih (by omega)) closes
  | ofTerm _ ih => exact .ofTerm (ih hd)
  | ofAndExpr _ ih => exact .ofAndExpr (ih hd)
  | and left joins _ ihl ihr =>
    rw [depth_joined left (by simp [neutralKinds, joins])] at hd
    exact .and (ihl (by omega)) joins (ihr (by omega))
  | or left joins _ ihl ihr =>
    rw [depth_joined left (by simp [neutralKinds, joins])] at hd
    exact .or (ihl (by omega)) joins (ihr (by omega))

/-! ## Lists -/

theorem listsWithin_leaf {p : Predicate} :
    ListsWithin n (.leaf p) ↔ ∀ ls, p.test = .isIn ls → ls.length ≤ n := by
  simp [ListsWithin, Expr.leaves]

theorem listsWithin_and : ListsWithin n (.and l r) ↔ ListsWithin n l ∧ ListsWithin n r := by
  simp [ListsWithin, Expr.leaves, or_imp, forall_and]

theorem listsWithin_or : ListsWithin n (.or l r) ↔ ListsWithin n l ∧ ListsWithin n r := by
  simp [ListsWithin, Expr.leaves, or_imp, forall_and]

/-- A token that is neither `$in` nor an opening parenthesis keeps its sides apart. -/
theorem unbracketed_joined (hin : t.kind ≠ .operator .isIn) (hopen : t.kind ≠ .leftParen) :
    Unbracketed (ts ++ t :: us) ↔ Unbracketed ts ∧ Unbracketed us := by
  simp [Unbracketed, List.isChain_append, List.isChain_cons, hin, hopen]

theorem unbracketed_cons (hin : t.kind ≠ .operator .isIn) :
    Unbracketed (t :: ts) ↔ Unbracketed ts := by
  simp [Unbracketed, List.isChain_cons, hin]

theorem Leaf.listLength_le_iff {p : Predicate} (h : Leaf ts p) :
    listLength (ts.drop 2) ≤ n ↔
      ListsWithin (max n 1) (.leaf p) ∧ (n = 0 → Unbracketed ts) := by
  rw [listsWithin_leaf]
  cases h with
  | null name op | notNull name op => simp [listLength, Unbracketed, name, op]
  | compare name op value | pattern name op value =>
    have hlength := Demand.listLength_value value []
    simp [hlength, Unbracketed, name, op]
  | isIn name op values =>
    cases values with
    | @single v l value =>
      have hopens : v.kind ≠ .leftParen := by
        intro hk
        exact absurd (hk ▸ Demand.neutral_of_value value) (by decide)
      show listLength [v] ≤ n ↔ _
      rw [Demand.listLength_value value []]
      refine ⟨fun _ => ⟨?_, fun _ => ?_⟩, fun _ => Nat.zero_le n⟩
      · intro ls hls
        cases hls
        exact Nat.le_max_right n 1
      · simp [Unbracketed, name, op, hopens]
    | @list opening closing ts ls opens listed closes =>
      -- the list has a value, so where none are allowed there are no parentheses around it
      have hpos := listed.length_pos
      show listLength (opening :: (ts ++ [closing])) ≤ n ↔ _
      rw [Demand.listLength_list opens listed closes]
      simp [Unbracketed, op, opens]
      omega

/-- The longest list in parentheses is within `n`: every list is, unless none is in parentheses. -/
theorem Derives.listValues_le_iff (h : Derives sym ts e) :
    (ofTokens 0 ts).listValues ≤ n ↔
      ListsWithin (max n 1) e ∧ (n = 0 → Unbracketed ts) := by
  induction h with
  | predicate leaf =>
    rw [Demand.ofTokens_leaf leaf]
    exact leaf.listLength_le_iff
  | group opens inner closes ih =>
    rw [Demand.ofTokens_group inner opens closes, Demand.ofTokens_grouped inner, List.cons_append,
      unbracketed_cons (by simp [opens]), unbracketed_joined (by simp [closes]) (by simp [closes])]
    show (ofTokens 0 _).listValues ≤ n ↔ _
    simpa [Unbracketed] using ih
  | ofTerm _ ih | ofAndExpr _ ih => exact ih
  | and left joins _ ihl ihr =>
    rw [Demand.ofTokens_joined left (by simp [neutralKinds, joins]), listsWithin_and,
      unbracketed_joined (by simp [joins]) (by simp [joins])]
    show max _ _ ≤ n ↔ _
    rw [Nat.max_le, ihl, ihr, imp_and, and_and_and_comm]
  | or left joins _ ihl ihr =>
    rw [Demand.ofTokens_joined left (by simp [neutralKinds, joins]), listsWithin_or,
      unbracketed_joined (by simp [joins]) (by simp [joins])]
    show max _ _ ≤ n ↔ _
    rw [Nat.max_le, ihl, ihr, imp_and, and_and_and_comm]

end Grammar

/-! ## Limits that suffice for a filter -/

section Suffice

variable {limits : Limits} {ts : List Token} {e : Expr Predicate}

theorem Limits.suffice_iff_allow (h : Derives .expr ts e) :
    limits.Suffice ts e ↔ limits.Allow (ofTokens 0 ts) := by
  constructor
  · rintro ⟨hpredicates, hdepth, hlists, hbrackets⟩
    refine ⟨?_, hdepth.depth_le, h.listValues_le_iff.mpr ⟨hlists, hbrackets⟩⟩
    rwa [Demand.predicates_ofTokens h]
  · rintro ⟨hpredicates, hdepth, hlists⟩
    rw [Demand.predicates_ofTokens h] at hpredicates
    obtain ⟨hlists, hbrackets⟩ := h.listValues_le_iff.mp hlists
    exact ⟨hpredicates, h.nested hdepth, hlists, hbrackets⟩

/-- Where lists may have values, it makes no difference how a list is written. -/
theorem Limits.suffice_iff_of_pos (hpos : 0 < limits.listValues) :
    limits.Suffice ts e ↔ e.size ≤ limits.predicates ∧ Nested limits.depth .expr ts e ∧
      ListsWithin limits.listValues e := by
  have hmax : Nat.max limits.listValues 1 = limits.listValues := Nat.max_eq_left hpos
  constructor
  · rintro ⟨hpredicates, hdepth, hlists, -⟩
    rw [hmax] at hlists
    exact ⟨hpredicates, hdepth, hlists⟩
  · rintro ⟨hpredicates, hdepth, hlists⟩
    rw [← hmax] at hlists
    exact ⟨hpredicates, hdepth, hlists, fun hzero => absurd hzero (Nat.ne_of_gt hpos)⟩

end Suffice

namespace Parser

/-- **The structural limits are exact**: a text that the grammar derives is read if and only if
the limits suffice for it, and is refused for one of them otherwise. -/
theorem parse_iff_suffice {text : String} {ts : List Token} {e : Expr Predicate}
    (hlex : tokenize text = .ok ts) (h : Derives .expr ts e) (limits : Limits) :
    (parse limits text = .ok e ↔ limits.Suffice ts e) ∧
      (¬ limits.Suffice ts e →
        ∃ l, parse limits text = .error (.limitExceeded l (limits.max l))) := by
  have hlexed := Lexed.of_tokenize hlex
  have hread (limits : Limits) : parse limits text = .ok e ↔ limits.Suffice ts e := by
    rw [parse_eq_ok_iff, Demand.ofText, hlexed, Limits.suffice_iff_allow h]
    simp [h]
  refine ⟨hread limits, fun hrefused => ?_⟩
  -- with enough room the text is read, so only a limit can be in the way
  have hwide : parse (limits.roomFor (ofTokens 0 ts)) text = .ok e :=
    (hread _).mpr ((Limits.suffice_iff_allow h).mpr (limits.roomFor_allow _))
  rcases parse_within (limits.max_le_join_left _) text with hsame | ⟨_, ⟨l, rfl⟩, herror⟩
  · exact absurd ((hread limits).mp (hsame.trans hwide)) hrefused
  · exact ⟨l, herror⟩

/-- A text at the edge of each limit, and the limits one lower. -/
theorem parse_iff_suffice_tight :
    let text := "(a $in (1, 2)) OR b $null"
    let e : Expr Predicate :=
      .or (.leaf ⟨"a", 1, .isIn [⟨.number, ['1'], 8⟩, ⟨.number, ['2'], 11⟩]⟩)
        (.leaf ⟨"b", 18, .null⟩)
    let tight : Limits := { predicates := 2, depth := 1, listValues := 2 }
    let ts := (Lexed.ofText text).tokens
    tokenize text = .ok ts ∧ Derives .expr ts e ∧ tight.Suffice ts e ∧
      ∀ limits ∈ [{ tight with predicates := 1 }, { tight with depth := 0 },
        { tight with listValues := 1 }], ¬ limits.Suffice ts e := by
  intro text e tight ts
  have hlex : tokenize text = .ok ts := by decide +kernel
  have hparse : parse tight text = .ok e := by decide +kernel
  have hderives : Derives .expr ts e := (derives_of_parse hparse).2
  refine ⟨hlex, hderives, (parse_iff_suffice hlex hderives tight).1.mp hparse, ?_⟩
  intro limits hmem hsuffice
  have hok := (parse_iff_suffice hlex hderives limits).1.mpr hsuffice
  have hrefused : ∀ limits ∈ [{ tight with predicates := 1 }, { tight with depth := 0 },
      { tight with listValues := 1 }], parse limits text ≠ .ok e := by decide +kernel
  exact hrefused limits hmem hok

/-- A value behind `$in` without parentheses is a list of one value, but is not held against
the limit. -/
theorem not_forall_parse_iff_listsWithin :
    ¬ ∀ (limits : Limits) (text : String) (ts : List Token) (e : Expr Predicate),
      tokenize text = .ok ts → Derives .expr ts e →
      (parse limits text = .ok e ↔ e.size ≤ limits.predicates ∧
        Nested limits.depth .expr ts e ∧ ListsWithin limits.listValues e) := by
  intro hall
  let limits : Limits := { listValues := 0 }
  let value : Literal := ⟨.number, ['5'], 6⟩
  let e : Expr Predicate := .leaf ⟨"a", 0, .isIn [value]⟩
  have hlex : tokenize "a $in 5" = .ok (Lexed.ofText "a $in 5").tokens := by decide +kernel
  have hparse : parse limits "a $in 5" = .ok e := by decide +kernel
  obtain ⟨-, -, hlists⟩ := (hall limits _ _ e hlex (derives_of_parse hparse).2).mp hparse
  have hlength : [value].length ≤ 0 := hlists _ (List.mem_singleton.mpr rfl) [value] rfl
  exact absurd hlength (by decide)

end Parser

end RecordQuery
