import RecordQuery.Proofs.Declaration
import RecordQuery.Proofs.Fragment
import RecordQuery.Proofs.ParserSoundness
import RecordQuery.Proofs.Resolution
import RecordQuery.Proofs.TokenOrder

/-!
# Placeholders

Literals never become part of a fragment: filters that differ in their literals
alone have one fragment. Each literal has one placeholder instead. It stands in
the text that is written for the predicate of the literal, and the value that is
bound to it is what the literal denotes for the field of that predicate.
-/

namespace RecordQuery

open Outcome Text

/-! ## Fragments without their literals -/

/-- Predicates that differ at most in their literals, of which they have
equally many. -/
structure Predicate.SameForm (p p' : Predicate) : Prop where
  field : p.field = p'.field
  operator : p.test.operator = p'.test.operator
  count : p.test.values.length = p'.test.values.length

namespace ResolvedPredicate

/-- Predicates that are written alike and bind values of the same types. -/
structure SameText (q q' : ResolvedPredicate) : Prop where
  text : Condition.testFragment q.field.column q.test =
    Condition.testFragment q'.field.column q'.test
  types : List.Forall₂ (fun v v' => v.type = v'.type) q.test.values q'.test.values

end ResolvedPredicate

/-- All values that a predicate binds have the type that its operator binds. -/
theorem Predicate.Resolves.types {r : RecordType} {p : Predicate} {q : ResolvedPredicate}
    (h : p.Resolves r q) : ∀ v ∈ q.test.values, v.type = q.field.boundType p.test.operator := by
  intro v hv
  obtain ⟨l, -, hl⟩ := exists_of_mem_right h.values hv
  exact Field.type_of_bound hl

theorem Predicate.SameForm.sameText {r : RecordType} {p p' : Predicate}
    {q q' : ResolvedPredicate} (hp : p.Resolves r q) (hp' : p'.Resolves r q')
    (h : p.SameForm p') : q.SameText q' := by
  have hfield : q.field = q'.field := by
    have hq := hp.field
    rw [h.field, hp'.field] at hq
    exact (Option.some.inj hq).symm
  have hop : q.test.operator = q'.test.operator := by
    rw [hp.operator, hp'.operator, h.operator]
  have hlen : q.test.values.length = q'.test.values.length := by
    rw [← hp.values.length_eq, ← hp'.values.length_eq, h.count]
  refine ⟨by rw [hfield, Condition.testFragment_congr _ hop hlen], ?_⟩
  refine List.forall₂_iff_zip.mpr ⟨hlen, fun {v v'} hmem => ?_⟩
  rw [hp.types v (List.of_mem_zip hmem).1, hp'.types v' (List.of_mem_zip hmem).2, hfield,
    h.operator]

theorem Condition.fragmentOf_congr {e e' : Expr ResolvedPredicate}
    (h : e.Rel ResolvedPredicate.SameText e') : fragmentOf e = fragmentOf e' := by
  induction h with
  | leaf h => exact h.text
  | and _ _ ihl ihr => rw [fragmentOf, fragmentOf, ihl, ihr]
  | or _ _ ihl ihr => rw [fragmentOf, fragmentOf, ihl, ihr]

/-- **Literals do not reach the fragment**: two filters with the same fields,
operators and numbers of literals have the same fragment, and values of the same
types, whatever the literals are. -/
theorem fragment_eq_of_sameForm {r : RecordType} {limits : Limits} {text text' : String}
    {e e' : Expr Predicate} {c c' : Condition} (he : parse limits text = .ok e)
    (he' : parse limits text' = .ok e') (hc : compileFilter r limits text = .ok c)
    (hc' : compileFilter r limits text' = .ok c') (h : e.Rel Predicate.SameForm e') :
    c.fragment = c'.fragment ∧ c.values.length = c'.values.length ∧
      List.Forall₂ (fun v v' => v.type = v'.type) c.values c'.values := by
  obtain ⟨d, q, hd, hq, rfl⟩ := compileFilter_eq_ok.mp hc
  obtain ⟨d', q', hd', hq', rfl⟩ := compileFilter_eq_ok.mp hc'
  cases hd.symm.trans he
  cases hd'.symm.trans he'
  -- from one resolved tree over the two filters to the other
  have hsame : q.Rel ResolvedPredicate.SameText q' := by
    have hchain := ((Expr.resolves_of_resolve hq).flip.trans h).trans (Expr.resolves_of_resolve hq')
    refine hchain.imp fun a b ⟨p', ⟨p, hp, hform⟩, hp'⟩ => ?_
    exact hform.sameText hp hp'
  have htypes : List.Forall₂ (fun v v' => v.type = v'.type) (Condition.ofExpr q).values
      (Condition.ofExpr q').values :=
    List.rel_flatMap hsame.leaves fun _ _ hab => hab.types
  exact ⟨Condition.fragmentOf_congr hsame, htypes.length_eq, htypes⟩

/-- What would end a quoted string has no more effect than any other text. -/
theorem fragment_eq_of_sameForm_quoted :
    let r : RecordType := ⟨"user", none, none, [⟨"name", "name", .string, .allFor .string, false⟩]⟩
    let e : Expr Predicate := .leaf ⟨"name", 0, .compare .equal ⟨.string, "' OR 1=1 --".toList, 7⟩⟩
    let e' : Expr Predicate := .leaf ⟨"name", 0, .compare .equal ⟨.string, ['?'], 7⟩⟩
    let c : Condition := ⟨"name = ?", [.string "' OR 1=1 --"]⟩
    let c' : Condition := ⟨"name = ?", [.string "?"]⟩
    parse {} "name = ''' OR 1=1 --'" = .ok e ∧ parse {} "name = '?'" = .ok e' ∧
      compileFilter r {} "name = ''' OR 1=1 --'" = .ok c ∧
      compileFilter r {} "name = '?'" = .ok c' ∧ e.Rel Predicate.SameForm e' ∧
      c.fragment = c'.fragment ∧ c.values.length = c'.values.length ∧
      List.Forall₂ (fun v v' => v.type = v'.type) c.values c'.values := by
  intro r e e' c c'
  have he : parse {} "name = ''' OR 1=1 --'" = .ok e := by decide +kernel
  have he' : parse {} "name = '?'" = .ok e' := by decide +kernel
  have hc : compileFilter r {} "name = ''' OR 1=1 --'" = .ok c := by decide +kernel
  have hc' : compileFilter r {} "name = '?'" = .ok c' := by decide +kernel
  have h : e.Rel Predicate.SameForm e' := .leaf ⟨rfl, rfl, rfl⟩
  exact ⟨he, he', hc, hc', h, fragment_eq_of_sameForm he he' hc hc' h⟩

/-! ## Which leaf a character is written for -/

namespace Condition

/-- A character of a fragment, and the number of the leaf that it is written
for. Parentheses and connectives are written for none. -/
abbrev Mark := Char × Option Nat

/-- The characters of a text, all with one owner. -/
def markedAs (owner : Option Nat) (text : String) : List Mark :=
  text.toList.map fun c => (c, owner)

/-- Two marked texts in parentheses, with a connective between them. -/
def markedPair (connective : String) (left right : List Mark) : List Mark :=
  markedAs none "(" ++ left ++ markedAs none connective ++ right ++ markedAs none ")"

/-- The fragment of an expression, each character with its owner. Leaves are
numbered from the left, from `first` on. -/
def marked (first : Nat) : Expr ResolvedPredicate → List Mark
  | .leaf p => markedAs (some first) (testFragment p.field.column p.test)
  | .and l r => markedPair " AND " (marked first l) (marked (first + l.size) r)
  | .or l r => markedPair " OR " (marked first l) (marked (first + l.size) r)

@[simp] theorem map_fst_markedAs (owner : Option Nat) (text : String) :
    (markedAs owner text).map Prod.fst = text.toList := by
  simp [markedAs, Function.comp_def]

theorem mem_markedAs {owner : Option Nat} {text : String} {c : Char} {i : Nat} :
    (c, some i) ∈ markedAs owner text ↔ c ∈ text.toList ∧ owner = some i := by
  simp [markedAs]

theorem mem_markedPair {connective : String} {left right : List Mark} {c : Char} {i : Nat} :
    (c, some i) ∈ markedPair connective left right ↔ (c, some i) ∈ left ∨ (c, some i) ∈ right := by
  simp [markedPair, mem_markedAs]

/-- The marked characters are those of the fragment. -/
theorem map_fst_marked (first : Nat) (e : Expr ResolvedPredicate) :
    (marked first e).map Prod.fst = (fragmentOf e).toList := by
  induction e generalizing first with
  | leaf p => rw [marked, map_fst_markedAs, fragmentOf]
  | and l r ihl ihr | or l r ihl ihr =>
    simp only [marked, markedPair, fragmentOf, List.map_append, map_fst_markedAs, ihl, ihr,
      String.toList_append]

/-- Characters are marked with numbers of leaves only. -/
theorem mem_marked {first : Nat} {e : Expr ResolvedPredicate} {c : Char} {i : Nat}
    (h : (c, some i) ∈ marked first e) : first ≤ i ∧ i < first + e.size := by
  induction e generalizing first with
  | leaf p =>
    cases (mem_markedAs.mp h).2
    exact ⟨Nat.le_refl _, Nat.lt_succ_self _⟩
  | and l r ihl ihr | or l r ihl ihr =>
    have hsize : (l.leaves ++ r.leaves).length = l.size + r.size := List.length_append
    rw [Expr.size, Expr.leaves, hsize]
    rcases mem_markedPair.mp h with h | h
    · have := ihl h
      omega
    · have := ihr h
      omega

/-- The text is one piece of the marked characters, and nothing else has its owner. -/
structure OnlyPiece (owner : Nat) (text : String) (marks before after : List Mark) : Prop where
  piece : marks = before ++ markedAs (some owner) text ++ after
  not_before : ∀ c, (c, some owner) ∉ before
  not_after : ∀ c, (c, some owner) ∉ after

theorem OnlyPiece.left {connective text : String} {owner : Nat}
    {left right before after : List Mark} (h : OnlyPiece owner text left before after)
    (hright : ∀ c, (c, some owner) ∉ right) :
    OnlyPiece owner text (markedPair connective left right) (markedAs none "(" ++ before)
      (after ++ (markedAs none connective ++ right ++ markedAs none ")")) where
  piece := by simp only [markedPair, h.piece, List.append_assoc]
  not_before := by simp [mem_markedAs, h.not_before]
  not_after := by simp [mem_markedAs, h.not_after, hright]

theorem OnlyPiece.right {connective text : String} {owner : Nat}
    {left right before after : List Mark} (h : OnlyPiece owner text right before after)
    (hleft : ∀ c, (c, some owner) ∉ left) :
    OnlyPiece owner text (markedPair connective left right)
      (markedAs none "(" ++ left ++ markedAs none connective ++ before)
      (after ++ markedAs none ")") where
  piece := by simp only [markedPair, h.piece, List.append_assoc]
  not_before := by simp [mem_markedAs, h.not_before, hleft]
  not_after := by simp [mem_markedAs, h.not_after]

/-- The text of each leaf is one piece of the fragment. -/
theorem exists_onlyPiece {first i : Nat} {e : Expr ResolvedPredicate} {p : ResolvedPredicate}
    (h : e.leaves[i]? = some p) :
    ∃ before after, OnlyPiece (first + i) (testFragment p.field.column p.test) (marked first e)
      before after := by
  induction e generalizing first i with
  | leaf p' =>
    obtain ⟨rfl, rfl⟩ : i = 0 ∧ p' = p := by
      cases i with
      | zero => exact ⟨rfl, by simpa [Expr.leaves] using h⟩
      | succ i => simp [Expr.leaves] at h
    exact ⟨[], [], by simp [marked], by simp, by simp⟩
  | and l r ihl ihr | or l r ihl ihr =>
    have hsize : l.size = l.leaves.length := rfl
    rw [Expr.leaves] at h
    rcases Nat.lt_or_ge i l.leaves.length with hi | hi
    · -- the leaf is on the left: the right side has higher numbers only
      rw [List.getElem?_append_left hi] at h
      obtain ⟨before, after, hpiece⟩ := @ihl first _ h
      exact ⟨_, _, hpiece.left fun c hc => by have := (mem_marked hc).1; omega⟩
    · -- the leaf is on the right: the left side has lower numbers only
      rw [List.getElem?_append_right hi] at h
      obtain ⟨before, after, hpiece⟩ := @ihr (first + l.size) _ h
      rw [show first + l.size + (i - l.leaves.length) = first + i by omega] at hpiece
      exact ⟨_, _, hpiece.right fun c hc => by have := (mem_marked hc).2; omega⟩

/-! ## One placeholder for each value -/

theorem filter_eq_nil {cs : List Char} (h : '?' ∉ cs) : cs.filter (· == '?') = [] := by
  refine List.filter_eq_nil_iff.mpr fun c hc hq => ?_
  rw [beq_iff_eq] at hq
  exact h (hq ▸ hc)

/-- A leaf has a placeholder for each of its values, and no other. -/
theorem filter_testFragment {column : String} (hcolumn : '?' ∉ column.toList) (t : Test Datum) :
    (testFragment column t).toList.filter (· == '?') = List.replicate t.values.length '?' := by
  rw [toList_testFragment, List.filter_append, filter_eq_nil hcolumn, List.nil_append]
  cases t with
  | null | notNull | pattern => rfl
  | compare c => cases c <;> rfl
  | isIn vs =>
    show (" IN (".toList ++ marks vs.length ++ ")".toList).filter (· == '?') = _
    rw [List.filter_append, List.filter_append, filter_marks]
    exact List.append_nil _

/-- The placeholders of marked characters. -/
def placeholders (marks : List Mark) : List Mark :=
  marks.filter (·.1 == '?')

theorem placeholders_markedAs (owner : Option Nat) (text : String) :
    placeholders (markedAs owner text) = (text.toList.filter (· == '?')).map (·, owner) := by
  simp [placeholders, markedAs, List.filter_map, Function.comp_def]

theorem placeholders_markedPair {connective : String} (h : '?' ∉ connective.toList)
    (left right : List Mark) :
    placeholders (markedPair connective left right) = placeholders left ++ placeholders right := by
  have hnone : ∀ text : String, '?' ∉ text.toList → placeholders (markedAs none text) = [] := by
    intro text htext
    rw [placeholders_markedAs, filter_eq_nil htext]
    rfl
  have hopen := hnone "(" (by decide)
  have hclose := hnone ")" (by decide)
  have hconnective := hnone connective h
  simp only [placeholders, markedPair, List.filter_append] at *
  simp [hopen, hclose, hconnective]

theorem length_placeholders_marked (first : Nat) (e : Expr ResolvedPredicate) :
    (placeholders (marked first e)).length = (fragmentOf e).toList.count '?' := by
  rw [placeholders, ← List.countP_eq_length_filter, ← map_fst_marked first e, List.count,
    List.countP_map]
  rfl

end Condition

/-- A literal of a filter, with its predicate and the number of that leaf. -/
structure OwnedLiteral where
  owner : Nat
  predicate : Predicate
  literal : Literal

namespace Expr

/-- The literals of a filter. Leaves are numbered as in `Condition.marked`. -/
def literals (first : Nat) : Expr Predicate → List OwnedLiteral
  | .leaf p => p.test.values.map fun l => ⟨first, p, l⟩
  | .and l r | .or l r => l.literals first ++ r.literals (first + l.size)

theorem map_literal_literals (first : Nat) (e : Expr Predicate) :
    (e.literals first).map OwnedLiteral.literal = e.leaves.flatMap (·.test.values) := by
  induction e generalizing first with
  | leaf p => simp [literals, leaves, Function.comp_def]
  | and l r ihl ihr | or l r ihl ihr =>
    rw [literals, leaves, List.map_append, List.flatMap_append, ihl, ihr]

/-- The owner of a literal is the leaf of its predicate. -/
theorem exists_leaf_of_mem {first : Nat} {e : Expr Predicate} {o : OwnedLiteral}
    (h : o ∈ e.literals first) : ∃ i, o.owner = first + i ∧ e.leaves[i]? = some o.predicate := by
  induction e generalizing first with
  | leaf p =>
    obtain ⟨l, -, rfl⟩ := List.mem_map.mp h
    exact ⟨0, rfl, rfl⟩
  | and l r ihl ihr | or l r ihl ihr =>
    rw [leaves]
    rcases List.mem_append.mp h with h | h
    · obtain ⟨i, howner, hi⟩ := ihl h
      exact ⟨i, howner, List.getElem?_append_left (List.getElem?_eq_some_iff.mp hi).1 ▸ hi⟩
    · obtain ⟨i, howner, hi⟩ := ihr h
      refine ⟨l.leaves.length + i, howner.trans (Nat.add_assoc ..), ?_⟩
      rwa [List.getElem?_append_right (Nat.le_add_right ..), Nat.add_sub_cancel_left]

variable {r : RecordType} {e : Expr Predicate} {q : Expr ResolvedPredicate}

theorem Rel.size_eq {α β : Type} {R : α → β → Prop} {e : Expr α} {e' : Expr β}
    (h : e.Rel R e') : e.size = e'.size :=
  h.leaves.length_eq

/-- From the left, the placeholders are written for the owners of the literals. -/
theorem Rel.placeholders_marked (h : e.Rel (Predicate.Resolves r) q)
    (hcolumn : ∀ name f, r.field? name = some f → '?' ∉ f.column.toList) (first : Nat) :
    Condition.placeholders (Condition.marked first q) =
      (e.literals first).map fun o => ('?', some o.owner) := by
  induction h generalizing first with
  | @leaf p p' h =>
    rw [Condition.marked, Condition.placeholders_markedAs,
      Condition.filter_testFragment (hcolumn _ _ h.field), ← h.values.length_eq, literals]
    simp [Function.comp_def, List.map_const']
  | and hl _ ihl ihr | or hl _ ihl ihr =>
    rw [Condition.marked, Condition.placeholders_markedPair (by decide), ihl, ← hl.size_eq, ihr,
      literals, List.map_append]

/-- Each literal has one value, which it denotes for the field of its predicate. -/
theorem Rel.bound_literals (h : e.Rel (Predicate.Resolves r) q) (first : Nat) :
    List.Forall₂ (fun o v => ∃ f, r.field? o.predicate.field = some f ∧
        f.bound o.predicate.test.operator o.literal = .ok v)
      (e.literals first) (Condition.ofExpr q).values := by
  induction h generalizing first with
  | @leaf p p' h =>
    rw [Condition.values_leaf, literals, List.forall₂_map_left_iff]
    exact h.values.imp fun l v hv => ⟨p'.field, h.field, hv⟩
  | @and l r l' r' _ _ ihl ihr =>
    rw [Condition.values_and, literals]
    exact List.rel_append (ihl first) (ihr (first + l.size))
  | @or l r l' r' _ _ ihl ihr =>
    rw [Condition.values_or, literals]
    exact List.rel_append (ihl first) (ihr (first + l.size))

end Expr

/-- How the placeholders and values of a condition belong to the literals of its
filter. The tokens, the tree and the resolved tree are those of the filter. -/
structure Condition.Places (r : RecordType) (ts : List Token) (e : Expr Predicate)
    (q : Expr ResolvedPredicate) (c : Condition) : Prop where
  /-- The literals are those of the text, in its order. -/
  literals : (e.literals 0).map OwnedLiteral.literal = Grammar.literalsOf ts
  sourceOrder : (e.literals 0).Pairwise fun k l => k.literal.position < l.literal.position
  owner : ∀ o ∈ e.literals 0, e.leaves[o.owner]? = some o.predicate
  /-- Each leaf is looked up in the record type. -/
  resolved : e.Rel (Predicate.Resolves r) q
  /-- What is marked is the fragment, and each leaf has its own piece of it. -/
  text : (marked 0 q).map Prod.fst = c.fragment.toList
  piece : ∀ i p, q.leaves[i]? = some p → ∃ before after,
    OnlyPiece i (testFragment p.field.column p.test) (marked 0 q) before after
  count : c.placeholderCount = c.values.length
  /-- The `k`-th placeholder is written for the owner of the `k`-th literal. -/
  placeholder : placeholders (marked 0 q) = (e.literals 0).map fun o => ('?', some o.owner)
  /-- The `k`-th value is what the `k`-th literal denotes for its field. -/
  value : List.Forall₂ (fun o v => ∃ f, r.field? o.predicate.field = some f ∧
      f.bound o.predicate.test.operator o.literal = .ok v) (e.literals 0) c.values

/-- **One placeholder for each literal**: from left to right, the placeholders of
the fragment stand in the texts of the predicates whose literals they are for,
and the values are what these literals denote. -/
theorem places_of_compileFilter {d : RecordDeclaration} {r : RecordType} {limits : Limits}
    {text : String} {c : Condition} (hr : d.resolve = .ok r)
    (hc : compileFilter r limits text = .ok c) :
    ∃ ts e q, tokenize text = .ok ts ∧ parse limits text = .ok e ∧ e.resolve r = .ok q ∧
      c.Places r ts e q := by
  obtain ⟨e, q, he, hq, rfl⟩ := compileFilter_eq_ok.mp hc
  obtain ⟨hcomplete, hderives⟩ := Parser.derives_of_parse he
  have htokens : tokenize text = .ok (Lexed.ofText text).tokens := by
    rw [tokenize, Lexed.complete, hcomplete]
  have hrel := Expr.resolves_of_resolve hq
  have hfields : ∀ p ∈ e.leaves, isReservedWord p.field.toList = false := by
    intro p hp
    obtain ⟨q', -, hres⟩ := exists_of_mem_right hrel.flip.leaves hp
    exact RecordType.not_reserved hr hres.field
  have hliterals : (e.literals 0).map OwnedLiteral.literal =
      Grammar.literalsOf (Lexed.ofText text).tokens := by
    rw [Expr.map_literal_literals, hderives.literalsOf hfields]
  have hplaceholders := hrel.placeholders_marked (fun _ _ => RecordType.no_placeholder hr) 0
  have hvalues := hrel.bound_literals 0
  refine ⟨_, e, q, htokens, he, hq, ?_⟩
  exact {
    literals := hliterals
    sourceOrder := by
      have horder := Grammar.pairwise_position_literalsOf
        (Lexed.pairwise_position 0 text.toList)
      rw [show Lexed.ofChars 0 text.toList = Lexed.ofText text from rfl, ← hliterals] at horder
      rwa [List.pairwise_map] at horder
    owner := by
      intro o ho
      obtain ⟨i, howner, hi⟩ := Expr.exists_leaf_of_mem ho
      rwa [howner, Nat.zero_add]
    resolved := hrel
    text := Condition.map_fst_marked 0 q
    piece := by
      intro i p hp
      have := @Condition.exists_onlyPiece 0 i q p hp
      rwa [Nat.zero_add] at this
    count := by
      show (Condition.fragmentOf q).toList.count '?' = _
      rw [← hvalues.length_eq, ← Condition.length_placeholders_marked 0 q, hplaceholders,
        List.length_map]
    placeholder := hplaceholders
    value := hvalues }

/-- Question marks of a literal are no placeholders, and a pattern is bound as one. -/
theorem places_of_compileFilter_pattern :
    let d : RecordDeclaration :=
      { name := "user", qualifier := some "u",
        fields := [{ name := "name", type := .string },
          { name := "age", column := some "years", type := .integer }] }
    let r : RecordType := ⟨"user", none, none,
      [⟨"name", "u.name", .string, .allFor .string, false⟩,
        ⟨"age", "years", .integer, .allFor .integer, false⟩]⟩
    let text := "name $ct 'x?' AND age $in (1, 20)"
    let c : Condition := ⟨"(u.name LIKE ? ESCAPE '\\' AND years IN (?, ?))",
      [.string "%x?%", .integer 1, .integer 20]⟩
    d.resolve = .ok r ∧ compileFilter r {} text = .ok c ∧ ∃ ts e q, c.Places r ts e q := by
  intro d r text c
  have hr : d.resolve = .ok r := by decide +kernel
  have hc : compileFilter r {} text = .ok c := by decide +kernel
  obtain ⟨ts, e, q, -, -, -, h⟩ := places_of_compileFilter hr hc
  exact ⟨hr, hc, ts, e, q, h⟩

end RecordQuery
