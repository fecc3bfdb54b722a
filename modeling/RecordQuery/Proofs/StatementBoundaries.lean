import Mathlib.Data.List.Chain
import RecordQuery.Proofs.Rendering
import RecordQuery.Proofs.Requests

/-!
# Statement boundaries

No statement that is made for a request ends early, opens a comment or opens a
string. Every text of a schema is checked by itself, so what has to be shown is
that nothing forms where such texts meet the words of the statement: a word
stands between any two of them, and no word begins or ends like a boundary.
-/

namespace RecordQuery

open Outcome Text

/-! ## Text without boundaries -/

/-- The two characters open a comment. -/
def OpensComment (a b : Char) : Prop :=
  a = '-' ∧ b = '-' ∨ a = '/' ∧ b = '*'

/-- Text in which no statement ends and no comment opens. -/
structure Unbroken (cs : List Char) : Prop where
  noEnd : ';' ∉ cs
  noComment : cs.IsChain fun a b => ¬ OpensComment a b

/-- The character is no part of a boundary. -/
def isNeutral (c : Char) : Bool :=
  c != ';' && c != '-' && c != '/' && c != '*'

/-- The text can stand behind any text without boundaries. -/
def Joins (cs : List Char) : Prop :=
  ∀ before, Unbroken before → Unbroken (before ++ cs)

theorem unbroken_nil : Unbroken [] where
  noEnd := List.not_mem_nil
  noComment := .nil

theorem Unbroken.not_opensComment {cs : List Char} {a b : Char} (h : Unbroken cs)
    (hmem : [a, b] <:+: cs) : ¬ OpensComment a b := by
  have hpair : [a, b].IsChain fun a b => ¬ OpensComment a b := List.IsChain.infix h.noComment hmem
  exact List.isChain_pair.mp hpair

theorem Joins.unbroken {cs : List Char} (h : Joins cs) : Unbroken cs :=
  h [] unbroken_nil

theorem joins_nil : Joins [] := by
  intro before h
  rwa [List.append_nil]

theorem Joins.append {cs ds : List Char} (hc : Joins cs) (hd : Joins ds) : Joins (cs ++ ds) := by
  intro before h
  rw [← List.append_assoc]
  exact hd _ (hc _ h)

/-- A neutral character can stand between any two texts. -/
theorem joins_cons {c : Char} {cs : List Char} (hc : isNeutral c = true) (h : Unbroken cs) :
    Joins (c :: cs) := by
  intro before hbefore
  simp only [isNeutral, Bool.and_eq_true, bne_iff_ne] at hc
  obtain ⟨⟨⟨hend, hdash⟩, hslash⟩, hstar⟩ := hc
  have hafter : ∀ b, ¬ OpensComment c b := by
    rintro b (⟨rfl, -⟩ | ⟨rfl, -⟩)
    · exact hdash rfl
    · exact hslash rfl
  have hfront : ∀ a, ¬ OpensComment a c := by
    rintro a (⟨-, rfl⟩ | ⟨-, rfl⟩)
    · exact hdash rfl
    · exact hstar rfl
  constructor
  · rw [List.mem_append, List.mem_cons]
    rintro (hmem | hmem | hmem)
    · exact hbefore.noEnd hmem
    · exact hend hmem.symm
    · exact h.noEnd hmem
  · rw [List.isChain_append, List.isChain_cons]
    refine ⟨hbefore.noComment, ⟨fun b _ => hafter b, h.noComment⟩, ?_⟩
    intro a _ b hb
    obtain rfl : c = b := Option.some.inj hb
    exact hfront a

/-- A word of neutral characters can stand between any two texts. -/
theorem joins_append {word cs : List Char} (hword : word ≠ []) (hneutral : word.all isNeutral = true)
    (h : Unbroken cs) : Joins (word ++ cs) := by
  induction word with
  | nil => exact absurd rfl hword
  | cons c word ih =>
    rw [List.all_cons, Bool.and_eq_true] at hneutral
    refine joins_cons hneutral.1 ?_
    cases word with
    | nil => exact h
    | cons c' word => exact (ih (List.cons_ne_nil c' word) hneutral.2).unbroken

theorem joins_of_neutral {word : List Char} (h : word.all isNeutral = true) : Joins word := by
  cases word with
  | nil => exact joins_nil
  | cons c word =>
    rw [← List.append_nil (c :: word)]
    exact joins_append (List.cons_ne_nil c word) h unbroken_nil

/-- What holds of all pieces, and of two texts with a comma between them if it holds
of both, holds of a list of pieces. -/
theorem forall_intercalate {P : List Char → Prop} (hnil : P [])
    (hjoin : ∀ cs ds, P cs → P ds → P (cs ++ (", ".toList ++ ds))) {pieces : List String}
    (h : ∀ s ∈ pieces, P s.toList) : P (", ".intercalate pieces).toList := by
  rw [String.toList_intercalate]
  induction pieces with
  | nil => exact hnil
  | cons s pieces ih =>
    obtain ⟨hs, hpieces⟩ := List.forall_mem_cons.mp h
    cases pieces with
    | nil => simpa using hs
    | cons s' pieces =>
      simp only [List.map_cons, List.intercalate_cons_cons] at ih ⊢
      rw [List.append_assoc]
      exact hjoin _ _ hs (ih hpieces)

/-! ## Text of a schema -/

/-- Safe SQL has no boundary. -/
theorem unbroken_of_isSafeSql {cs : List Char} (h : isSafeSql cs = true) : Unbroken cs := by
  have hsafe := isSafeSql_iff.mp h
  refine ⟨hsafe.noEnd, List.isChain_iff_forall_rel_of_append_cons_cons.mpr ?_⟩
  rintro a b before after rfl (⟨rfl, rfl⟩ | ⟨rfl, rfl⟩)
  · exact hsafe.noLineComment ⟨before, after, by simp⟩
  · exact hsafe.noBlockComment ⟨before, after, by simp⟩

/-! ## Rendered conditions -/

theorem isNeutral_of_isDigit {c : Char} (h : c.isDigit = true) : isNeutral c = true := by
  simp only [isNeutral, Bool.and_eq_true, bne_iff_ne]
  refine ⟨⟨⟨?_, ?_⟩, ?_⟩, ?_⟩ <;> rintro rfl <;> cases h

namespace Condition

/-- What is asked of a column has no boundary in it, in any dialect. -/
theorem all_isNeutral_asked (op : Operator) (n : Nat) : (asked op n).all isNeutral = true := by
  have hnone : (asked op 0).all isNeutral = true := by
    cases op with
    | compare c => cases c <;> rfl
    | null | notNull | pattern | isIn => rfl
  exact all_asked hnone rfl rfl n

theorem all_isNeutral_placeholder (d : Dialect) (index : Nat) :
    (d.placeholder index).toList.all isNeutral = true := by
  refine List.all_eq_true.mpr fun c hc => ?_
  rcases d.mem_placeholder hc with rfl | rfl | hc
  · rfl
  · rfl
  · exact isNeutral_of_isDigit hc

theorem all_isNeutral_renderChars {cs : List Char} (h : cs.all isNeutral = true) (d : Dialect)
    (index : Nat) : (renderChars d index cs).all isNeutral = true := by
  refine List.all_eq_true.mpr fun c hc => ?_
  rcases mem_renderChars hc with hc | ⟨i, hc⟩
  · exact List.all_eq_true.mp h c hc
  · exact List.all_eq_true.mp (all_isNeutral_placeholder d i) c hc

theorem unbroken_leaf {d : Dialect} {index : Nat} {p : ResolvedPredicate}
    (h : isSafeSql p.field.column.toList = true) : Unbroken (rendered d index (.leaf p)) := by
  rw [rendered_leaf (not_mem_of_isSafeSql h).1]
  have hasked : Joins (' ' :: renderChars d index (asked p.test.operator p.test.values.length)) :=
    joins_of_neutral (all_isNeutral_renderChars (all_isNeutral_asked _ _) d index)
  exact hasked _ (unbroken_of_isSafeSql h)

/-- Two sides in parentheses, with a connective between them. -/
theorem unbroken_group {left word right : List Char} (hword : IsConnective word)
    (hl : Unbroken left) (hr : Unbroken right) :
    Unbroken ('(' :: (left ++ (word ++ (right ++ [')'])))) := by
  have hclose : Joins [')'] := joins_of_neutral (by decide)
  have hright : Unbroken (right ++ [')']) := hclose _ hr
  have hinner : Joins (word ++ (right ++ [')'])) := by
    rcases hword with rfl | rfl
    · exact joins_append (by decide) (by decide) hright
    · exact joins_append (by decide) (by decide) hright
  exact (joins_cons (by decide) (hinner _ hl)).unbroken

/-- Columns that have no boundary make conditions that have none. -/
theorem unbroken_rendered {d : Dialect} {index : Nat} {e : Expr ResolvedPredicate}
    (h : ∀ p ∈ e.leaves, isSafeSql p.field.column.toList = true) :
    Unbroken (rendered d index e) :=
  rendered_induction (motive := fun _ _ cs => Unbroken cs) unbroken_leaf unbroken_group h

end Condition

/-! ## Quotes -/

/-- The predicate is a search in text. -/
def ResolvedPredicate.isSearch (p : ResolvedPredicate) : Bool :=
  p.test.operator.isPattern

/-- The quotes of the text are those that stand behind the patterns of these
searches, in this order: what lies between the searches has none. -/
inductive QuotedBy (d : Dialect) : List ResolvedPredicate → List Char → Prop where
  | rest {cs : List Char} (plain : '\'' ∉ cs) : QuotedBy d [] cs
  | search {p : ResolvedPredicate} {ps : List ResolvedPredicate} {before after : List Char}
      {index : Nat} (searches : p.isSearch = true) (plain : '\'' ∉ before)
      (column : '\'' ∉ p.field.column.toList) (others : QuotedBy d ps after) :
      QuotedBy d (p :: ps) (before ++
        ((p.field.column ++ " LIKE " ++ d.placeholder index ++ " ESCAPE '\\'").toList ++ after))

theorem QuotedBy.append_left {d : Dialect} {ps : List ResolvedPredicate} {before cs : List Char}
    (hbefore : '\'' ∉ before) (h : QuotedBy d ps cs) : QuotedBy d ps (before ++ cs) := by
  cases h with
  | rest plain => exact .rest (List.not_mem_append hbefore plain)
  | search searches plain column others =>
    rw [← List.append_assoc]
    exact .search searches (List.not_mem_append hbefore plain) column others

theorem QuotedBy.cons {d : Dialect} {ps : List ResolvedPredicate} {c : Char} {cs : List Char}
    (hc : c ≠ '\'') (h : QuotedBy d ps cs) : QuotedBy d ps (c :: cs) :=
  h.append_left (mt List.mem_singleton.mp hc.symm)

theorem quote_not_mem_placeholder (d : Dialect) (index : Nat) :
    '\'' ∉ (d.placeholder index).toList := by
  intro h
  rcases d.mem_placeholder h with h | h | h <;> cases h

/-- Each search has two quotes. -/
theorem QuotedBy.count {d : Dialect} {ps : List ResolvedPredicate} {cs : List Char}
    (h : QuotedBy d ps cs) : cs.count '\'' = 2 * ps.length := by
  induction h with
  | rest plain => exact List.count_eq_zero.mpr plain
  | @search p ps before after index _ plain column _ ih =>
    have hlike : " LIKE ".toList.count '\'' = 0 := by decide
    have hescape : " ESCAPE '\\'".toList.count '\'' = 2 := by decide
    simp only [String.toList_append, List.count_append, List.count_eq_zero.mpr plain,
      List.count_eq_zero.mpr column, List.count_eq_zero.mpr (quote_not_mem_placeholder d index),
      hlike, hescape, ih, List.length_cons]
    omega

namespace Condition

/-- Only searches have quotes. -/
theorem quote_not_mem_asked {op : Operator} (h : op.isPattern = false) (n : Nat) :
    '\'' ∉ asked op n := by
  have hnone : '\'' ∉ asked op 0 := by
    cases op with
    | pattern => cases h
    | compare c => cases c <;> decide
    | null | notNull | isIn => decide
  intro hmem
  rcases mem_asked hmem with hmem | hmem | hmem
  · exact hnone hmem
  · cases hmem
  · cases hmem

/-- A search has its placeholder between two words. -/
theorem renderChars_asked_pattern (d : Dialect) (index : Nat) (place : LikePattern.Place) (n : Nat) :
    renderChars d index (asked (.pattern place) n) =
      "LIKE ".toList ++ ((d.placeholder index).toList ++ " ESCAPE '\\'".toList) := by
  have hasked : asked (.pattern place) n = "LIKE ".toList ++ '?' :: " ESCAPE '\\'".toList := rfl
  have hlike : '?' ∉ "LIKE ".toList := by decide
  have hescape : '?' ∉ " ESCAPE '\\'".toList := by decide
  rw [hasked, renderChars_append, renderChars_of_not_mem hlike, List.count_eq_zero.mpr hlike,
    Nat.add_zero, renderChars, if_pos rfl, renderChars_of_not_mem hescape]

/-- How a search is written. -/
theorem toList_search (column : String) (d : Dialect) (index : Nat) :
    (column ++ " LIKE " ++ d.placeholder index ++ " ESCAPE '\\'").toList =
      column.toList ++ ' ' ::
        ("LIKE ".toList ++ ((d.placeholder index).toList ++ " ESCAPE '\\'".toList)) := by
  simp only [String.toList_append, List.append_assoc]
  rfl

/-- The searches of a tree. -/
def searches (e : Expr ResolvedPredicate) : List ResolvedPredicate :=
  e.leaves.filter ResolvedPredicate.isSearch

variable {d : Dialect} {index : Nat}

theorem quotedBy_leaf {p : ResolvedPredicate} (hsafe : isSafeSql p.field.column.toList = true)
    (ps : List ResolvedPredicate) (after : List Char) (h : QuotedBy d ps after) :
    QuotedBy d ([p].filter ResolvedPredicate.isSearch ++ ps)
      (rendered d index (.leaf p) ++ after) := by
  obtain ⟨hplaceholder, hquote, -⟩ := not_mem_of_isSafeSql hsafe
  rw [rendered_leaf hplaceholder]
  by_cases hsearch : p.isSearch = true
  · rw [List.filter_cons_of_pos hsearch]
    obtain ⟨place, hop⟩ : ∃ place, p.test.operator = .pattern place := by
      unfold ResolvedPredicate.isSearch at hsearch
      cases hop : p.test.operator with
      | pattern place => exact ⟨place, rfl⟩
      | compare | null | notNull | isIn =>
        rw [hop] at hsearch
        cases hsearch
    rw [hop, renderChars_asked_pattern, ← toList_search]
    exact .search hsearch List.not_mem_nil hquote h
  · rw [List.filter_cons_of_neg hsearch]
    have hspace : ' ' ≠ '\'' := by decide
    have hasked : '\'' ∉ renderChars d index (asked p.test.operator p.test.values.length) := by
      intro hmem
      rcases mem_renderChars hmem with hmem | ⟨i, hmem⟩
      · exact quote_not_mem_asked (Bool.not_eq_true _ ▸ hsearch) _ hmem
      · exact quote_not_mem_placeholder d i hmem
    rw [List.append_assoc]
    exact ((h.append_left hasked).cons hspace).append_left hquote

/-- Two sides in parentheses, with a connective between them: behind the left side
stands the rest of the group. -/
theorem quotedBy_group {ls rs : List ResolvedPredicate} {left right word : List Char}
    (hword : IsConnective word)
    (hl : ∀ ps after, QuotedBy d ps after →
      QuotedBy d (ls.filter ResolvedPredicate.isSearch ++ ps) (left ++ after))
    (hr : ∀ ps after, QuotedBy d ps after →
      QuotedBy d (rs.filter ResolvedPredicate.isSearch ++ ps) (right ++ after))
    (ps : List ResolvedPredicate) (after : List Char) (h : QuotedBy d ps after) :
    QuotedBy d ((ls ++ rs).filter ResolvedPredicate.isSearch ++ ps)
      ('(' :: (left ++ (word ++ (right ++ [')']))) ++ after) := by
  have hopen : '(' ≠ '\'' := by decide
  have hclose : ')' ≠ '\'' := by decide
  have hplain : '\'' ∉ word := by rcases hword with rfl | rfl <;> decide
  have hinner := hl _ _ ((hr _ _ (h.cons hclose)).append_left hplain)
  rw [List.filter_append]
  simpa using hinner.cons hopen

/-- The quotes of a condition are those of its searches. -/
theorem quotedBy_rendered {e : Expr ResolvedPredicate}
    (h : ∀ p ∈ e.leaves, isSafeSql p.field.column.toList = true) :
    ∀ ps after, QuotedBy d ps after → QuotedBy d (searches e ++ ps) (rendered d index e ++ after) :=
  rendered_induction
    (motive := fun _ ls cs => ∀ ps after, QuotedBy d ps after →
      QuotedBy d (ls.filter ResolvedPredicate.isSearch ++ ps) (cs ++ after))
    quotedBy_leaf quotedBy_group h

end Condition

/-! ## Clauses -/

/-- A sort key goes on from its column with a word of its own. -/
theorem Dialect.toList_sortKey (d : Dialect) (column : String) (direction : Direction) :
    (d.sortKey ⟨column, direction⟩).toList =
      column.toList ++ (d.sortKey ⟨"", direction⟩).toList := by
  cases d <;> cases direction <;> simp [sortKey, SortKey.sql]

/-- Sort keys have no boundary and no quote, if their columns have none. -/
theorem Dialect.unbroken_sortKeys {d : Dialect} {ks : List SortKey}
    (h : ∀ k ∈ ks, isSafeSql k.column.toList = true) :
    Unbroken (d.sortKeys ks).toList ∧ '\'' ∉ (d.sortKeys ks).toList := by
  have hword : ∀ direction, (d.sortKey ⟨"", direction⟩).toList.all isNeutral = true ∧
      '\'' ∉ (d.sortKey ⟨"", direction⟩).toList := by
    intro direction
    cases d <;> cases direction <;> decide
  have hkey : ∀ s ∈ ks.map d.sortKey, Unbroken s.toList ∧ '\'' ∉ s.toList := by
    intro s hs
    obtain ⟨⟨column, direction⟩, hk, rfl⟩ := List.mem_map.mp hs
    have hsafe := h _ hk
    rw [toList_sortKey]
    exact ⟨joins_of_neutral (hword direction).1 _ (unbroken_of_isSafeSql hsafe),
      List.not_mem_append (not_mem_of_isSafeSql hsafe).2.1 (hword direction).2⟩
  have hcomma : ", ".toList = [',', ' '] := rfl
  rw [sortKeys]
  refine forall_intercalate (P := fun cs => Unbroken cs ∧ '\'' ∉ cs)
    ⟨unbroken_nil, List.not_mem_nil⟩ ?_ hkey
  rintro cs ds ⟨hcs, hcs'⟩ ⟨hds, hds'⟩
  rw [hcomma]
  exact ⟨joins_append (List.cons_ne_nil _ _) (by decide) hds cs hcs,
    List.not_mem_append hcs' (List.not_mem_append (by decide) hds')⟩

/-- A page is selected with words and digits. -/
theorem Dialect.all_isNeutral_paging (d : Dialect) (p : Page) :
    (d.paging p).toList.all isNeutral = true ∧ '\'' ∉ (d.paging p).toList := by
  have hdigits : ∀ n, (natText n).toList.all isNeutral = true ∧ '\'' ∉ (natText n).toList := by
    intro n
    rw [natText, String.toList_ofList]
    refine ⟨List.all_eq_true.mpr fun c hc => ?_, fun hc => ?_⟩
    · exact isNeutral_of_isDigit (isDigit_of_mem_numeral hc)
    · cases isDigit_of_mem_numeral hc
  have hlimit : "LIMIT ".toList.all isNeutral = true ∧ '\'' ∉ "LIMIT ".toList := by decide
  have hoffset : " OFFSET ".toList.all isNeutral = true ∧ '\'' ∉ " OFFSET ".toList := by decide
  rw [paging, limitOffset]
  simp only [String.toList_append, List.all_append, List.mem_append, not_or, Bool.and_eq_true]
  exact ⟨⟨⟨⟨hlimit.1, (hdigits _).1⟩, hoffset.1⟩, (hdigits _).1⟩,
    ⟨⟨hlimit.2, (hdigits _).2⟩, hoffset.2⟩, (hdigits _).2⟩

namespace Statement

theorem joins_clause {word : String} {text : Option String} (hword : word.toList ≠ [])
    (hneutral : word.toList.all isNeutral = true) (h : ∀ t, text = some t → Unbroken t.toList) :
    Joins (clause word text).toList := by
  cases text with
  | none => exact joins_nil
  | some t =>
    rw [clause, String.toList_append]
    exact joins_append hword hneutral (h t rfl)

/-- The quotes of a statement are those of its condition. -/
theorem quotedBy_where (d : Dialect) {tree : Option (Expr ResolvedPredicate)} {after : List Char}
    (h : ∀ e, tree = some e → ∀ p ∈ e.leaves, isSafeSql p.field.column.toList = true)
    (hafter : '\'' ∉ after) :
    QuotedBy d (tree.elim [] Condition.searches)
      ((clause " WHERE " ((tree.map .ofExpr).map fun c => Condition.render c d 1)).toList ++
        after) := by
  cases tree with
  | none => exact .rest hafter
  | some e =>
    have hword : '\'' ∉ " WHERE ".toList := by decide
    have hrendered : QuotedBy d (Condition.searches e) (Condition.rendered d 1 e ++ after) := by
      rw [← List.append_nil (Condition.searches e)]
      exact Condition.quotedBy_rendered (h e rfl) [] after (.rest hafter)
    simp only [Option.map_some, clause, String.toList_append, Condition.toList_render_ofExpr,
      List.append_assoc]
    exact hrendered.append_left hword

end Statement

/-! ## Statements -/

/-- The tree that the filter of a request resolves to; none if it has no filter. -/
inductive Request.Asks (request : Request) (r : RecordType) (limits : Limits) :
    Option (Expr ResolvedPredicate) → Prop where
  | nothing (decoded : decode request.filter = .ok none) : Asks request r limits none
  | filter {text : String} {e : Expr Predicate} {q : Expr ResolvedPredicate}
      (decoded : decode request.filter = .ok (some text)) (parsed : parse limits text = .ok e)
      (resolved : e.resolve r = .ok q) : Asks request r limits (some q)

/-- The text is one statement without comments, and all quotes in it are those of
these searches. -/
structure KeepsBoundaries (d : Dialect) (searches : List ResolvedPredicate) (sql : List Char) :
    Prop where
  noEnd : ';' ∉ sql
  noDashes : ¬ "--".toList <:+: sql
  noSlash : ¬ "/*".toList <:+: sql
  quoted : QuotedBy d searches sql
  count : sql.count '\'' = 2 * searches.length

theorem Unbroken.keepsBoundaries {d : Dialect} {searches : List ResolvedPredicate}
    {sql : List Char} (h : Unbroken sql) (hquoted : QuotedBy d searches sql) :
    KeepsBoundaries d searches sql where
  noEnd := h.noEnd
  noDashes := fun hdashes => h.not_opensComment hdashes (.inl ⟨rfl, rfl⟩)
  noSlash := fun hslash => h.not_opensComment hslash (.inr ⟨rfl, rfl⟩)
  quoted := hquoted
  count := hquoted.count

namespace Query

/-- All text of the query and of its record type is safe, but for that of the tree,
whose columns are. -/
structure Safe (q : Query) (r : RecordType) (tree : Option (Expr ResolvedPredicate)) : Prop where
  select : isSafeSql r.selectList.toList = true
  source : isSafeSql r.source.toList = true
  condition : q.condition = tree.map .ofExpr
  columns : ∀ e, tree = some e → ∀ p ∈ e.leaves, isSafeSql p.field.column.toList = true
  order : ∀ k ∈ q.order, isSafeSql k.column.toList = true

variable {q : Query} {r : RecordType} {tree : Option (Expr ResolvedPredicate)}

theorem Safe.unbroken (h : q.Safe r tree) (d : Dialect) :
    Unbroken (q.applyTo (Statement.ofRecord d r)).sql.toList := by
  have hselect : Joins ("SELECT ".toList ++ r.selectList.toList) :=
    joins_append (by decide) (by decide) (unbroken_of_isSafeSql h.select)
  have hsource : Joins (" FROM ".toList ++ r.source.toList) :=
    joins_append (by decide) (by decide) (unbroken_of_isSafeSql h.source)
  have hwhere : Joins (Statement.clause " WHERE " (q.condition.map fun c => c.render d 1)).toList := by
    refine Statement.joins_clause (by decide) (by decide) fun t ht => ?_
    rw [h.condition, Option.map_map] at ht
    obtain ⟨e, he, rfl⟩ := Option.map_eq_some_iff.mp ht
    exact Condition.toList_render_ofExpr e d 1 ▸ Condition.unbroken_rendered (h.columns e he)
  have horder : Joins (Statement.clause " ORDER BY "
      (if q.order.isEmpty then none else some (d.sortKeys q.order))).toList := by
    refine Statement.joins_clause (by decide) (by decide) fun t ht => ?_
    split at ht
    · cases ht
    · cases ht
      exact (Dialect.unbroken_sortKeys h.order).1
  have hpaging : Joins (" ".toList ++ (d.paging q.page).toList) :=
    (joins_of_neutral (by decide)).append (joins_of_neutral (d.all_isNeutral_paging q.page).1)
  have hall := (((hselect.append hsource).append hwhere).append horder).append hpaging
  rw [sql_applyTo]
  simpa only [String.toList_append, List.append_assoc] using hall.unbroken

theorem Safe.quotedBy (h : q.Safe r tree) (d : Dialect) :
    QuotedBy d (tree.elim [] Condition.searches)
      (q.applyTo (Statement.ofRecord d r)).sql.toList := by
  have hselect : '\'' ∉ "SELECT ".toList ++ r.selectList.toList :=
    List.not_mem_append (by decide) (not_mem_of_isSafeSql h.select).2.1
  have hsource : '\'' ∉ " FROM ".toList ++ r.source.toList :=
    List.not_mem_append (by decide) (not_mem_of_isSafeSql h.source).2.1
  have horder : '\'' ∉ (Statement.clause " ORDER BY "
      (if q.order.isEmpty then none else some (d.sortKeys q.order))).toList := by
    split
    · exact List.not_mem_nil
    · rw [Statement.clause, String.toList_append]
      exact List.not_mem_append (by decide) (Dialect.unbroken_sortKeys h.order).2
  have hpaging : '\'' ∉ " ".toList ++ (d.paging q.page).toList :=
    List.not_mem_append (by decide) (d.all_isNeutral_paging q.page).2
  have hwhere := Statement.quotedBy_where d h.columns (List.not_mem_append horder hpaging)
  rw [← h.condition] at hwhere
  rw [sql_applyTo]
  simpa only [String.toList_append, List.append_assoc] using
    (hwhere.append_left hsource).append_left hselect

end Query

/-- The parts of a query that compiles are safe. -/
theorem Request.exists_safe_of_compile {decl : RecordDeclaration} {r : RecordType}
    {registry : Registry} {settings : Settings} {request : Request} {name : String} {q : Query}
    (hr : decl.resolve = .ok r) (hname : registry.resolve? name = some r)
    (hq : request.compile registry settings name = .ok q) :
    ∃ tree, request.Asks r settings.limits tree ∧ q.Safe r tree := by
  obtain ⟨r', hr', hcondition, horder, -⟩ := compile_eq_ok.mp hq
  cases hname.symm.trans hr'
  obtain ⟨hselect, hsource⟩ := RecordDeclaration.safe_of_resolve hr
  have hkeys : ∀ k ∈ q.order, isSafeSql k.column.toList = true := by
    intro k hk
    obtain ⟨name, f, hf, hcolumn⟩ := exists_field_of_compileOrder horder k hk
    rw [hcolumn]
    exact RecordType.safe_column hr hf
  obtain ⟨-, ⟨hdecode, hnone⟩ | ⟨text, c, hdecode, hc, hsome⟩⟩ := compileFilter_eq_ok.mp hcondition
  · exact ⟨none, .nothing hdecode, hselect, hsource, hnone, nofun, hkeys⟩
  · obtain ⟨e, tree, he, htree, rfl⟩ := RecordQuery.compileFilter_eq_ok.mp hc
    refine ⟨some tree, .filter hdecode he htree, hselect, hsource, hsome, ?_, hkeys⟩
    rintro _ ⟨⟩
    exact Expr.safe_columns hr htree

/-- **Statements keep their boundaries**: the statement of a request, in any
dialect, has no semicolon and no comment, and its quotes are the two behind each
pattern. -/
theorem keepsBoundaries_of_compile {decl : RecordDeclaration} {r : RecordType}
    {registry : Registry} {settings : Settings} {request : Request} {name : String} {q : Query}
    (hr : decl.resolve = .ok r) (hname : registry.resolve? name = some r)
    (hq : request.compile registry settings name = .ok q) (d : Dialect) :
    ∃ tree, request.Asks r settings.limits tree ∧ q.condition = tree.map .ofExpr ∧
      KeepsBoundaries d (tree.elim [] Condition.searches)
        (q.applyTo (Statement.ofRecord d r)).sql.toList := by
  obtain ⟨tree, hasks, hsafe⟩ := Request.exists_safe_of_compile hr hname hq
  exact ⟨tree, hasks, hsafe.condition, (hsafe.unbroken d).keepsBoundaries (hsafe.quotedBy d)⟩

/-- A column that begins like a comment, and a search for what would end a statement. -/
theorem keepsBoundaries_of_compile_search :
    let decl : RecordDeclaration :=
      { name := "user", select := some "u.id, -1", tables := some "users u", qualifier := some "u",
        fields := [{ name := "name", type := .string },
          { name := "age", column := some "-u.age", type := .integer, orderable := true }] }
    let r : RecordType := ⟨"user", some "u.id, -1", some "users u",
      [⟨"name", "u.name", .string, .allFor .string, false⟩,
        ⟨"age", "-u.age", .integer, .allFor .integer, true⟩]⟩
    let request : Request :=
      { filter := some "name+$sw+'--;'+OR+age+>+5", order := some "age+desc" }
    let q : Query := ⟨some ⟨"(u.name LIKE ? ESCAPE '\\' OR -u.age > ?)", [.string "--;%", .integer 5]⟩,
      [⟨"-u.age", .descending⟩], ⟨1, 20⟩⟩
    decl.resolve = .ok r ∧ Registry.resolve? ⟨[r]⟩ "user" = some r ∧
      request.compile ⟨[r]⟩ {} "user" = .ok q ∧
      ∃ tree, request.Asks r {} tree ∧ q.condition = tree.map .ofExpr ∧
        KeepsBoundaries .postgres (tree.elim [] Condition.searches)
          (q.applyTo (Statement.ofRecord .postgres r)).sql.toList := by
  intro decl r request q
  have hr : decl.resolve = .ok r := by decide +kernel
  have hname : Registry.resolve? ⟨[r]⟩ "user" = some r := by decide +kernel
  have hq : request.compile ⟨[r]⟩ {} "user" = .ok q := by decide +kernel
  exact ⟨hr, hname, hq, keepsBoundaries_of_compile hr hname hq .postgres⟩

end RecordQuery
