import Mathlib.Data.List.TakeWhile
import RecordQuery.Proofs.Rendering

/-!
# Parameter references

PostgreSQL takes a dollar sign and digits for a parameter, wherever they come
from. Rendering numbers the placeholders of a condition one after the other, and
writes no other reference; but a column may hold one, since a dollar sign is safe
in the SQL of a schema. So the references of a condition are those of its
placeholders if and only if its columns have none. They follow one upon the other
as long as their numbers are words; after the greatest word comes zero.
-/

namespace RecordQuery

open Outcome Text

namespace Text

/-- The digits behind each dollar sign that has some. -/
def references : List Char → List (List Char)
  | [] => []
  | c :: cs =>
    if c = '$' ∧ cs.takeWhile Char.isDigit ≠ [] then cs.takeWhile Char.isDigit :: references cs
    else references cs

/-- `count` numerals, the first of them for `first`. -/
def numerals (first count : Nat) : List (List Char) :=
  (List.range' first count).map numeral

/-- `count` numerals of words, the first of them for `first`. -/
def wordNumerals (first count : Nat) : List (List Char) :=
  (List.range' first count).map fun n => numeral (n % UInt64.size)

/-- A number that stands before the text ends there. -/
def EndsNumeral (cs : List Char) : Prop :=
  ∀ c ∈ cs.head?, c.isDigit = false

theorem endsNumeral_nil : EndsNumeral [] :=
  nofun

theorem endsNumeral_cons {c : Char} (h : c.isDigit = false) (cs : List Char) :
    EndsNumeral (c :: cs) := by
  rintro _ ⟨⟩
  exact h

theorem takeWhile_isDigit_append {cs ds : List Char} (h : EndsNumeral ds) :
    (cs ++ ds).takeWhile Char.isDigit = cs.takeWhile Char.isDigit := by
  induction cs with
  | nil =>
    cases ds with
    | nil => rfl
    | cons d ds =>
      have hd : ¬ d.isDigit = true := by simp [h d rfl]
      exact List.takeWhile_cons_of_neg hd
  | cons c cs ih => rw [List.cons_append, List.takeWhile_cons, List.takeWhile_cons, ih]

/-- No reference goes over the place where a number would end. -/
theorem references_append {ds : List Char} (h : EndsNumeral ds) (cs : List Char) :
    references (cs ++ ds) = references cs ++ references ds := by
  induction cs with
  | nil => rfl
  | cons c cs ih =>
    rw [List.cons_append, references, references, takeWhile_isDigit_append h, ih]
    split <;> rfl

theorem references_cons_of_ne {c : Char} (h : c ≠ '$') (cs : List Char) :
    references (c :: cs) = references cs := by
  rw [references, if_neg fun hc => h hc.1]

theorem references_append_of_not_mem {word : List Char} (h : '$' ∉ word) (cs : List Char) :
    references (word ++ cs) = references cs := by
  induction word with
  | nil => rfl
  | cons c word ih =>
    have hc : c ≠ '$' := fun hc => h (hc ▸ List.mem_cons_self)
    rw [List.cons_append, references_cons_of_ne hc, ih (List.not_mem_of_not_mem_cons h)]

/-- The reference with a number. -/
theorem references_dollar_numeral (n : Nat) {cs : List Char} (h : EndsNumeral cs) :
    references ('$' :: (numeral n ++ cs)) = numeral n :: references cs := by
  have hdigits : (numeral n ++ cs).takeWhile Char.isDigit = numeral n := by
    rw [takeWhile_isDigit_append h, List.takeWhile_eq_self_iff]
    exact fun c hc => isDigit_of_mem_numeral hc
  have hdollar : '$' ∉ numeral n := by
    intro hmem
    cases isDigit_of_mem_numeral hmem
  rw [references, hdigits, if_pos ⟨rfl, numeral_ne_nil n⟩, references_append_of_not_mem hdollar]

theorem length_numerals (first count : Nat) : (numerals first count).length = count := by
  rw [numerals, List.length_map, List.length_range']

theorem length_wordNumerals (first count : Nat) : (wordNumerals first count).length = count := by
  rw [wordNumerals, List.length_map, List.length_range']

theorem wordNumerals_succ (first count : Nat) : wordNumerals first (count + 1) =
    numeral (first % UInt64.size) :: wordNumerals (first + 1) count := by
  rw [wordNumerals, List.range'_succ]
  rfl

theorem wordNumerals_append (first n m : Nat) :
    wordNumerals first n ++ wordNumerals (first + n) m = wordNumerals first (n + m) := by
  rw [wordNumerals, wordNumerals, wordNumerals, ← List.map_append, List.range'_append_1]

/-- The numbers that are written follow one upon the other if all of them are words. -/
theorem wordNumerals_eq_numerals {first count : Nat} :
    wordNumerals first count = numerals first count ↔
      count = 0 ∨ first + count ≤ UInt64.size := by
  have hword : ∀ n, n % UInt64.size = n ↔ n < UInt64.size :=
    fun n => Nat.mod_eq_iff_lt (by decide)
  simp only [wordNumerals, numerals, List.map_inj_left, numeral_inj, List.mem_range'_1, hword]
  constructor
  · intro h
    rcases Nat.eq_zero_or_pos count with hzero | hpos
    · exact .inl hzero
    · -- the last of the numbers is a word
      have hlast := h (first + count - 1) (by omega)
      omega
  · intro h n hn
    omega

end Text

/-! ## References of a condition -/

/-- The references of some leaves: of each leaf those that its column has, and then
those of its values, which go on from `index` in words. -/
def referencesOf (index : Nat) : List ResolvedPredicate → List (List Char)
  | [] => []
  | p :: ps =>
    references p.field.column.toList ++ wordNumerals index p.test.values.length ++
      referencesOf (index + p.test.values.length) ps

theorem referencesOf_append (index : Nat) (ps qs : List ResolvedPredicate) :
    referencesOf index (ps ++ qs) = referencesOf index ps ++
      referencesOf (index + (ps.flatMap fun p => p.test.values).length) qs := by
  induction ps generalizing index with
  | nil => rfl
  | cons p ps ih =>
    rw [List.cons_append, referencesOf, referencesOf, ih, List.flatMap_cons, List.length_append,
      Nat.add_assoc, List.append_assoc (_ ++ _)]

theorem length_referencesOf (index : Nat) (ps : List ResolvedPredicate) :
    (referencesOf index ps).length =
      (ps.flatMap fun p => references p.field.column.toList).length +
        (ps.flatMap fun p => p.test.values).length := by
  induction ps generalizing index with
  | nil => rfl
  | cons p ps ih =>
    simp only [referencesOf, List.length_append, ih, List.flatMap_cons, length_wordNumerals]
    omega

/-- Where no column has a reference, those of the values are left. -/
theorem referencesOf_eq_wordNumerals {ps : List ResolvedPredicate}
    (h : ∀ p ∈ ps, references p.field.column.toList = []) (index : Nat) :
    referencesOf index ps =
      wordNumerals index (ps.flatMap fun p => p.test.values).length := by
  induction ps generalizing index with
  | nil => rfl
  | cons p ps ih =>
    obtain ⟨hp, hps⟩ := List.forall_mem_cons.mp h
    rw [referencesOf, hp, ih hps, List.nil_append, wordNumerals_append, List.flatMap_cons,
      List.length_append]

/-- The references are those of the values alone, one number after the other, if and only if
no column has any and all the numbers are words. -/
theorem referencesOf_eq_numerals {index : Nat} {ps : List ResolvedPredicate} :
    referencesOf index ps = numerals index (ps.flatMap fun p => p.test.values).length ↔
      (∀ p ∈ ps, references p.field.column.toList = []) ∧
        ((ps.flatMap fun p => p.test.values).length = 0 ∨
          index + (ps.flatMap fun p => p.test.values).length ≤ UInt64.size) := by
  constructor
  · intro h
    -- there are as many references as values, so the columns have none
    have hlength := congrArg List.length h
    rw [length_referencesOf, length_numerals] at hlength
    have hnone : (ps.flatMap fun p => references p.field.column.toList).length = 0 := by omega
    have hcolumns := List.flatMap_eq_nil_iff.mp (List.length_eq_zero_iff.mp hnone)
    rw [referencesOf_eq_wordNumerals hcolumns] at h
    exact ⟨hcolumns, wordNumerals_eq_numerals.mp h⟩
  · rintro ⟨hcolumns, hwords⟩
    rw [referencesOf_eq_wordNumerals hcolumns, wordNumerals_eq_numerals.mpr hwords]

namespace Condition

/-- The character is no part of a reference. -/
def isPlain (c : Char) : Bool :=
  c != '$' && !c.isDigit

theorem isPlain_iff {c : Char} : isPlain c = true ↔ c ≠ '$' ∧ c.isDigit = false := by
  rw [isPlain, Bool.and_eq_true, bne_iff_ne, Bool.not_eq_true']

/-- What is asked of a column has no reference of its own. -/
theorem all_isPlain_asked (op : Operator) (n : Nat) : (asked op n).all isPlain = true := by
  have hnone : (asked op 0).all isPlain = true := by
    cases op with
    | compare c => cases c <;> rfl
    | null | notNull | pattern | isIn => rfl
  exact all_asked hnone rfl rfl n

theorem count_asked (t : Test Datum) :
    (asked t.operator t.values.length).count '?' = t.values.length := by
  have hcolumn : '?' ∉ "".toList := List.not_mem_nil
  have hspace : ' ' ≠ '?' := by decide
  have hcount := count_testFragment hcolumn t
  rwa [toList_testFragment, List.count_append, List.count_eq_zero.mpr hcolumn, Nat.zero_add,
    List.count_cons_of_ne hspace] at hcount

theorem endsNumeral_renderChars_append {index : Nat} {cs after : List Char}
    (h : cs.all isPlain = true) (hafter : EndsNumeral after) :
    EndsNumeral (renderChars .postgres index cs ++ after) := by
  cases cs with
  | nil => exact hafter
  | cons c cs =>
    rw [renderChars]
    split
    · rw [Dialect.toList_placeholder_postgres]
      exact endsNumeral_cons rfl _
    · rw [List.all_cons, Bool.and_eq_true] at h
      exact endsNumeral_cons (isPlain_iff.mp h.1).2 _

/-- Plain text has a reference for each placeholder. -/
theorem references_renderChars {index : Nat} {cs after : List Char} (h : cs.all isPlain = true)
    (hafter : EndsNumeral after) :
    references (renderChars .postgres index cs ++ after) =
      wordNumerals index (cs.count '?') ++ references after := by
  induction cs generalizing index with
  | nil => rfl
  | cons c cs ih =>
    rw [List.all_cons, Bool.and_eq_true] at h
    obtain ⟨hc, hcs⟩ := h
    by_cases hmark : c = '?'
    · subst hmark
      have hends : EndsNumeral (renderChars .postgres (index + 1) cs ++ after) :=
        endsNumeral_renderChars_append hcs hafter
      rw [renderChars, if_pos rfl, Dialect.toList_placeholder_postgres, List.append_assoc,
        List.cons_append, references_dollar_numeral _ hends, ih hcs, List.count_cons_self,
        wordNumerals_succ, List.cons_append]
    · rw [renderChars, if_neg hmark, List.cons_append, references_cons_of_ne (isPlain_iff.mp hc).1,
        ih hcs, List.count_cons_of_ne hmark]

theorem references_leaf {index : Nat} {p : ResolvedPredicate}
    (h : isSafeSql p.field.column.toList = true) (after : List Char) (hafter : EndsNumeral after) :
    references (rendered .postgres index (.leaf p) ++ after) =
      referencesOf index [p] ++ references after := by
  have hspace : ' ' ≠ '$' := by decide
  rw [rendered_leaf (not_mem_of_isSafeSql h).1, List.append_assoc, List.cons_append,
    references_append (endsNumeral_cons rfl _), references_cons_of_ne hspace,
    references_renderChars (all_isPlain_asked _ _) hafter, count_asked, referencesOf, referencesOf,
    List.append_nil, List.append_assoc]

/-- Two sides in parentheses, with a connective between them: it ends the last number
of the left side, and the parenthesis that of the right one. -/
theorem references_group {index : Nat} {ls rs : List ResolvedPredicate}
    {left right word : List Char} (hword : IsConnective word)
    (hl : ∀ after, EndsNumeral after →
      references (left ++ after) = referencesOf index ls ++ references after)
    (hr : ∀ after, EndsNumeral after → references (right ++ after) =
      referencesOf (index + (ls.flatMap fun p => p.test.values).length) rs ++ references after)
    (after : List Char) :
    references ('(' :: (left ++ (word ++ (right ++ [')']))) ++ after) =
      referencesOf index (ls ++ rs) ++ references after := by
  have hopen : '(' ≠ '$' := by decide
  have hclose : ')' ≠ '$' := by decide
  have hplain : '$' ∉ word := by rcases hword with rfl | rfl <;> decide
  have hends : ∀ cs, EndsNumeral (word ++ cs) := by
    rcases hword with rfl | rfl <;> exact fun cs => endsNumeral_cons rfl _
  have hright : EndsNumeral (')' :: after) := endsNumeral_cons rfl after
  calc references ('(' :: (left ++ (word ++ (right ++ [')']))) ++ after)
      = references (left ++ (word ++ (right ++ ')' :: after))) := by
        simp only [List.cons_append, List.append_assoc, List.nil_append,
          references_cons_of_ne hopen]
    _ = referencesOf index ls ++ references (right ++ ')' :: after) := by
        rw [hl _ (hends _), references_append_of_not_mem hplain]
    _ = referencesOf index (ls ++ rs) ++ references after := by
        rw [hr _ hright, references_cons_of_ne hclose, referencesOf_append, List.append_assoc]

/-- The references of a condition are those of its leaves, one after the other. -/
theorem references_rendered {index : Nat} {e : Expr ResolvedPredicate}
    (h : ∀ p ∈ e.leaves, isSafeSql p.field.column.toList = true) :
    ∀ after, EndsNumeral after → references (rendered .postgres index e ++ after) =
      referencesOf index e.leaves ++ references after :=
  rendered_induction
    (motive := fun index ls cs => ∀ after, EndsNumeral after →
      references (cs ++ after) = referencesOf index ls ++ references after)
    references_leaf (fun hword hl hr after _ => references_group hword hl hr after) h

end Condition

/-- **The references of a condition** for PostgreSQL are, leaf by leaf, those in the
column and those of the values, numbered from `index` on. So they are those of the
values alone, one number after the other, if and only if no column of the filter has a
reference of its own and the last number is a word. -/
theorem references_of_compileFilter {decl : RecordDeclaration} {r : RecordType} {limits : Limits}
    {text : String} {c : Condition} (hr : decl.resolve = .ok r)
    (hc : compileFilter r limits text = .ok c) (index : UInt64) :
    ∃ e q, parse limits text = .ok e ∧ e.resolve r = .ok q ∧ c = .ofExpr q ∧
      references (c.render .postgres index.toNat).toList = referencesOf index.toNat q.leaves ∧
      (references (c.render .postgres index.toNat).toList =
          numerals index.toNat c.values.length ↔
        (∀ p ∈ q.leaves, references p.field.column.toList = []) ∧
          (c.values.length = 0 ∨ index.toNat + c.values.length ≤ UInt64.size)) := by
  obtain ⟨e, q, he, hq, rfl⟩ := compileFilter_eq_ok.mp hc
  have hrefs : references ((Condition.ofExpr q).render .postgres index.toNat).toList =
      referencesOf index.toNat q.leaves := by
    rw [Condition.toList_render_ofExpr, ← List.append_nil (Condition.rendered _ _ _),
      Condition.references_rendered (Expr.safe_columns hr hq) [] endsNumeral_nil, references,
      List.append_nil]
  refine ⟨e, q, he, hq, rfl, hrefs, ?_⟩
  rw [hrefs]
  exact referencesOf_eq_numerals

/-- A column without references, and a filter whose references begin at three. -/
theorem references_of_compileFilter_plain :
    let decl : RecordDeclaration :=
      { name := "user", fields := [{ name := "age", type := .integer, column := some "a$.age" }] }
    let r : RecordType := ⟨"user", none, none,
      [⟨"age", "a$.age", .integer, .allFor .integer, false⟩]⟩
    let c : Condition := ⟨"a$.age IN (?, ?)", [.integer 5, .integer 6]⟩
    let index : UInt64 := 3
    decl.resolve = .ok r ∧ compileFilter r {} "age $in (5, 6)" = .ok c ∧
      ∃ e q, parse {} "age $in (5, 6)" = .ok e ∧ e.resolve r = .ok q ∧ c = .ofExpr q ∧
        references (c.render .postgres index.toNat).toList = referencesOf index.toNat q.leaves ∧
        (references (c.render .postgres index.toNat).toList =
            numerals index.toNat c.values.length ↔
          (∀ p ∈ q.leaves, references p.field.column.toList = []) ∧
            (c.values.length = 0 ∨ index.toNat + c.values.length ≤ UInt64.size)) := by
  intro decl r c index
  have hr : decl.resolve = .ok r := by decide +kernel
  have hc : compileFilter r {} "age $in (5, 6)" = .ok c := by decide +kernel
  exact ⟨hr, hc, references_of_compileFilter hr hc index⟩

/-- A column may take a parameter from another value: here the default of the column
is the very value that it is compared with. -/
theorem not_forall_references_eq_numerals :
    ¬ ∀ (decl : RecordDeclaration) (r : RecordType) (limits : Limits) (text : String)
      (c : Condition) (index : UInt64), decl.resolve = .ok r →
      compileFilter r limits text = .ok c → 1 ≤ index →
      references (c.render .postgres index.toNat).toList =
        numerals index.toNat c.values.length := by
  let decl : RecordDeclaration :=
    { name := "user",
      fields := [{ name := "age", type := .integer, column := some "coalesce(age, $1)" }] }
  let r : RecordType := ⟨"user", none, none,
    [⟨"age", "coalesce(age, $1)", .integer, .allFor .integer, false⟩]⟩
  let c : Condition := ⟨"coalesce(age, $1) = ?", [.integer 5]⟩
  have hr : decl.resolve = .ok r := by decide +kernel
  have hc : compileFilter r {} "age = 5" = .ok c := by decide +kernel
  have htwo : references (c.render .postgres (1 : UInt64).toNat).toList = [['1'], ['1']] := by
    decide +kernel
  have hone : numerals (1 : UInt64).toNat c.values.length = [['1']] := by decide +kernel
  intro h
  have heq := h decl r {} "age = 5" c 1 hr hc (by decide)
  rw [htwo, hone] at heq
  cases heq

end RecordQuery
