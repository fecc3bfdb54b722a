import RecordQuery.Proofs.Declaration
import RecordQuery.Proofs.Fragment
import RecordQuery.Proofs.Resolution

/-!
# Readability

Conditions can be read in only one way. Where every column is the name of its
field, the text of a condition ends by itself, whatever follows it, and tells the
tree that it was written for; its values end by themselves too, and tell the
values of each leaf. So conditions that are joined with AND can be taken apart
again, and no OR escapes its parentheses. Only the place of a pattern is not
told by the text; it is part of the value.
-/

namespace RecordQuery

open Outcome Text

namespace Condition

/-! ## Words that end by themselves -/

/-- A word without a certain character ends where that character first stands. -/
theorem append_cons_inj {c : Char} {as bs cs ds : List Char} (ha : c ∉ as) (hb : c ∉ bs)
    (h : as ++ c :: cs = bs ++ c :: ds) : as = bs ∧ cs = ds := by
  induction as generalizing bs with
  | nil =>
    cases bs with
    | nil => exact ⟨rfl, (List.cons.inj h).2⟩
    | cons b bs =>
      have hcb : c = b := (List.cons.inj h).1
      exact absurd (hcb ▸ List.mem_cons_self) hb
  | cons a as ih =>
    cases bs with
    | nil =>
      have hac : a = c := (List.cons.inj h).1
      exact absurd (hac ▸ List.mem_cons_self) ha
    | cons b bs =>
      obtain ⟨rfl, htail⟩ := List.cons.inj h
      obtain ⟨rfl, rfl⟩ := ih (List.not_mem_of_not_mem_cons ha) (List.not_mem_of_not_mem_cons hb)
        htail
      exact ⟨rfl, rfl⟩

theorem space_not_mem_verb (op : Operator) : ' ' ∉ verb op := by
  have hall : ∀ op ∈ Operator.all, ' ' ∉ verb op := by decide
  exact hall op (Operator.mem_all op)

end Condition

/-- The operators are written alike: they are one, or both search in text. -/
def Operator.Alike (op op' : Operator) : Prop :=
  op = op' ∨ op.isPattern = true ∧ op'.isPattern = true

instance (op op' : Operator) : Decidable (op.Alike op') :=
  inferInstanceAs (Decidable (_ ∨ _))

theorem Operator.Alike.arity_eq {op op' : Operator} (h : op.Alike op') : op.arity = op'.arity := by
  rcases h with rfl | ⟨hp, hp'⟩
  · rfl
  · cases op <;> cases hp
    cases op' <;> cases hp'
    rfl

theorem Operator.Alike.eq_isIn {op op' : Operator} (h : op.Alike op') (h' : op' = .isIn) :
    op = .isIn := by
  rcases h with rfl | ⟨-, hp'⟩
  · exact h'
  · subst h'
    cases hp'

namespace Condition

/-- The first word tells the operators apart, but for the two that ask for NULL. -/
theorem alike_of_verb_eq {op op' : Operator} (h : verb op = verb op') :
    op.Alike op' ∨ op = .null ∧ op' = .notNull ∨ op = .notNull ∧ op' = .null := by
  have hall : ∀ a ∈ Operator.all, ∀ b ∈ Operator.all, verb a = verb b →
      a.Alike b ∨ a = .null ∧ b = .notNull ∨ a = .notNull ∧ b = .null := by decide +kernel
  exact hall op (Operator.mem_all op) op' (Operator.mem_all op') h

theorem object_append_inj {op : Operator} {n m : Nat} {rest rest' : List Char}
    (h : object op n ++ rest = object op m ++ rest') : (op = .isIn → n = m) ∧ rest = rest' := by
  cases op with
  | isIn =>
    have hmarks : marks n ++ [')'] ++ rest = marks m ++ [')'] ++ rest' := (List.cons.inj h).2
    rw [List.append_assoc, List.append_assoc] at hmarks
    obtain ⟨hnm, hrest⟩ := append_cons_inj (rightParen_not_mem_marks n)
      (rightParen_not_mem_marks m) hmarks
    exact ⟨fun _ => marks_inj hnm, hrest⟩
  | null | notNull | compare | pattern => exact ⟨nofun, List.append_cancel_left h⟩

theorem object_null_append_ne {n m : Nat} (rest rest' : List Char) :
    object .null n ++ rest ≠ object .notNull m ++ rest' := by
  have hnull : "NULL".toList = ['N', 'U', 'L', 'L'] := rfl
  have hnotNull : "NOT NULL".toList = ['N', 'O', 'T', ' ', 'N', 'U', 'L', 'L'] := rfl
  show "NULL".toList ++ rest ≠ "NOT NULL".toList ++ rest'
  rw [hnull, hnotNull]
  simp

/-- What is asked of a column ends by itself, and tells what the operator is. -/
theorem asked_append_inj {op op' : Operator} {n m : Nat} {rest rest' : List Char}
    (h : asked op n ++ rest = asked op' m ++ rest') :
    op.Alike op' ∧ (op = .isIn → n = m) ∧ rest = rest' := by
  have h' : verb op ++ ' ' :: (object op n ++ rest) = verb op' ++ ' ' :: (object op' m ++ rest') := by
    simpa [asked] using h
  obtain ⟨hverb, hobject⟩ := append_cons_inj (space_not_mem_verb op) (space_not_mem_verb op') h'
  rcases alike_of_verb_eq hverb with halike | ⟨rfl, rfl⟩ | ⟨rfl, rfl⟩
  · refine ⟨halike, ?_⟩
    rcases halike with rfl | ⟨hp, hp'⟩
    · exact object_append_inj hobject
    · -- what is asked for a pattern does not show its place
      cases op <;> cases hp
      cases op' <;> cases hp'
      exact object_append_inj hobject
  · exact absurd hobject (object_null_append_ne _ _)
  · exact absurd hobject.symm (object_null_append_ne _ _)

end Condition

/-! ## Leaves -/

namespace ResolvedPredicate

/-- The predicate asks for a field of the record type under the name of the field. -/
structure Plain (r : RecordType) (p : ResolvedPredicate) : Prop where
  named : isFieldName p.field.column.toList = true
  found : r.field? p.field.column = some p.field

/-- The predicates ask the same of the same field. Searches in text are told
apart by their patterns. -/
structure SameTest (p p' : ResolvedPredicate) : Prop where
  field : p.field = p'.field
  operator : p.test.operator.Alike p'.test.operator
  values : p.test.values = p'.test.values

variable {r : RecordType} {p p' : ResolvedPredicate}

theorem Plain.space_not_mem (h : p.Plain r) : ' ' ∉ p.field.column.toList := by
  obtain ⟨c, cs, heq, hstart, hpart, -⟩ := exists_cons_of_isFieldName h.named
  rw [heq]
  intro hmem
  rcases List.mem_cons.mp hmem with rfl | hmem
  · cases hstart
  · have := List.all_eq_true.mp hpart _ hmem
    cases this

/-- Only a list has a number of values that its operator does not tell. -/
theorem length_values {t : Test Datum} (h : t.operator ≠ .isIn) :
    t.values.length = if t.operator.arity = .nullary then 0 else 1 := by
  cases t with
  | null | notNull | compare | pattern => rfl
  | isIn vs => exact absurd rfl h

theorem length_values_eq {t t' : Test Datum} (h : t.operator.Alike t'.operator)
    (hlist : t.operator = .isIn → t.values.length = t'.values.length) :
    t.values.length = t'.values.length := by
  by_cases hop : t.operator = .isIn
  · exact hlist hop
  · rw [length_values hop, length_values (mt h.eq_isIn hop), h.arity_eq]

/-- A leaf and its values end by themselves, whatever follows them. -/
theorem Plain.append_inj (hp : p.Plain r) (hp' : p'.Plain r) {rest rest' : List Char}
    {vs vs' : List Datum}
    (htext : (Condition.testFragment p.field.column p.test).toList ++ rest =
      (Condition.testFragment p'.field.column p'.test).toList ++ rest')
    (hvalues : p.test.values ++ vs = p'.test.values ++ vs') :
    p.SameTest p' ∧ rest = rest' ∧ vs = vs' := by
  rw [Condition.toList_testFragment, Condition.toList_testFragment, List.append_assoc,
    List.append_assoc] at htext
  obtain ⟨hcolumn, hasked⟩ :=
    Condition.append_cons_inj hp.space_not_mem hp'.space_not_mem htext
  obtain ⟨hop, hlist, hrest⟩ := Condition.asked_append_inj hasked
  have hfield : p.field = p'.field := by
    have hfound := hp.found
    rw [String.toList_inj.mp hcolumn, hp'.found] at hfound
    exact (Option.some.inj hfound).symm
  obtain ⟨hv, hvs⟩ := List.append_inj hvalues (length_values_eq hop hlist)
  exact ⟨⟨hfield, hop, hv⟩, hrest, hvs⟩

end ResolvedPredicate

/-! ## Trees -/

namespace Condition

variable {r : RecordType}

theorem toList_fragmentOf_leaf_ne {p : ResolvedPredicate} (hp : p.Plain r) (cs rest : List Char) :
    (fragmentOf (.leaf p)).toList ++ rest ≠ '(' :: cs := by
  obtain ⟨c, ds, heq, hstart, -⟩ := exists_cons_of_isFieldName hp.named
  rw [fragmentOf, toList_testFragment, heq]
  intro h
  cases (List.cons.inj h).1
  cases hstart

/-- If the texts and the values of the trees agree with something behind them, then
the trees agree, and so does what is behind them. -/
def EndTogether (e e' : Expr ResolvedPredicate) : Prop :=
  ∀ (rest rest' : List Char) (vs vs' : List Datum),
    (fragmentOf e).toList ++ rest = (fragmentOf e').toList ++ rest' →
      (ofExpr e).values ++ vs = (ofExpr e').values ++ vs' →
        e.Rel ResolvedPredicate.SameTest e' ∧ rest = rest' ∧ vs = vs'

theorem EndTogether.join {l l' r r' : Expr ResolvedPredicate} {word rest rest' : List Char}
    {vs vs' : List Datum} (hl : EndTogether l l') (hr : EndTogether r r')
    (htext : '(' :: ((fragmentOf l).toList ++ (word ++ ((fragmentOf r).toList ++ ')' :: rest))) =
      '(' :: ((fragmentOf l').toList ++ (word ++ ((fragmentOf r').toList ++ ')' :: rest'))))
    (hvalues : (ofExpr l).values ++ (ofExpr r).values ++ vs =
      (ofExpr l').values ++ (ofExpr r').values ++ vs') :
    l.Rel ResolvedPredicate.SameTest l' ∧ r.Rel ResolvedPredicate.SameTest r' ∧
      rest = rest' ∧ vs = vs' := by
  rw [List.append_assoc, List.append_assoc] at hvalues
  obtain ⟨hleft, hafter, hv⟩ := hl _ _ _ _ (List.cons.inj htext).2 hvalues
  obtain ⟨hright, hrest, hvs⟩ := hr _ _ _ _ (List.append_cancel_left hafter) hv
  exact ⟨hleft, hright, (List.cons.inj hrest).2, hvs⟩

theorem and_append_ne_or_append (cs ds : List Char) : " AND ".toList ++ cs ≠ " OR ".toList ++ ds := by
  intro h
  cases (List.cons.inj (List.cons.inj h).2).1

/-- **A condition ends by itself**: its text and its values tell its tree, whatever
follows them. -/
theorem endTogether {e e' : Expr ResolvedPredicate} (hp : ∀ p ∈ e.leaves, p.Plain r)
    (hp' : ∀ p ∈ e'.leaves, p.Plain r) : EndTogether e e' := by
  -- what follows is quantified: behind a left side stands the rest of its group
  induction e generalizing e' with
  | leaf p =>
    intro rest rest' vs vs' htext hvalues
    have hleaf : p.Plain r := hp p List.mem_cons_self
    cases e' with
    | leaf p' =>
      rw [values_leaf, values_leaf] at hvalues
      have hleaf' : p'.Plain r := hp' p' List.mem_cons_self
      obtain ⟨hsame, hrest, hvs⟩ := hleaf.append_inj hleaf' htext hvalues
      exact ⟨.leaf hsame, hrest, hvs⟩
    | and l' r' =>
      rw [toList_fragmentOf_and] at htext
      exact absurd htext (toList_fragmentOf_leaf_ne hleaf _ _)
    | or l' r' =>
      rw [toList_fragmentOf_or] at htext
      exact absurd htext (toList_fragmentOf_leaf_ne hleaf _ _)
  | and l r ihl ihr =>
    intro rest rest' vs vs' htext hvalues
    rw [Expr.leaves, List.forall_mem_append] at hp
    rw [toList_fragmentOf_and] at htext
    rw [values_and] at hvalues
    cases e' with
    | leaf p' => exact absurd htext.symm (toList_fragmentOf_leaf_ne (hp' p' List.mem_cons_self) _ _)
    | and l' r' =>
      rw [Expr.leaves, List.forall_mem_append] at hp'
      rw [toList_fragmentOf_and] at htext
      rw [values_and] at hvalues
      obtain ⟨hleft, hright, h⟩ := (ihl hp.1 hp'.1).join (ihr hp.2 hp'.2) htext hvalues
      exact ⟨.and hleft hright, h⟩
    | or l' r' =>
      rw [Expr.leaves, List.forall_mem_append] at hp'
      rw [toList_fragmentOf_or] at htext
      rw [values_or, List.append_assoc, List.append_assoc] at hvalues
      -- the left sides agree, so the connectives would have to
      have hafter := (ihl hp.1 hp'.1 _ _ _ _ (List.cons.inj htext).2 hvalues).2.1
      exact absurd hafter (and_append_ne_or_append _ _)
  | or l r ihl ihr =>
    intro rest rest' vs vs' htext hvalues
    rw [Expr.leaves, List.forall_mem_append] at hp
    rw [toList_fragmentOf_or] at htext
    rw [values_or] at hvalues
    cases e' with
    | leaf p' => exact absurd htext.symm (toList_fragmentOf_leaf_ne (hp' p' List.mem_cons_self) _ _)
    | and l' r' =>
      rw [Expr.leaves, List.forall_mem_append] at hp'
      rw [toList_fragmentOf_and] at htext
      rw [values_and, List.append_assoc, List.append_assoc] at hvalues
      have hafter := (ihl hp.1 hp'.1 _ _ _ _ (List.cons.inj htext).2 hvalues).2.1
      exact absurd hafter.symm (and_append_ne_or_append _ _)
    | or l' r' =>
      rw [Expr.leaves, List.forall_mem_append] at hp'
      rw [toList_fragmentOf_or] at htext
      rw [values_or] at hvalues
      obtain ⟨hleft, hright, h⟩ := (ihl hp.1 hp'.1).join (ihr hp.2 hp'.2) htext hvalues
      exact ⟨.or hleft hright, h⟩

/-! ## Conditions that are joined -/

/-- What stands behind the first of several conditions. -/
def others (qs : List (Expr ResolvedPredicate)) : List Char :=
  qs.flatMap fun q => " AND ".toList ++ (fragmentOf q).toList

theorem toList_joined (q : Expr ResolvedPredicate) (qs : List (Expr ResolvedPredicate)) :
    (" AND ".intercalate ((q :: qs).map fragmentOf)).toList =
      (fragmentOf q).toList ++ others qs := by
  rw [String.toList_intercalate]
  induction qs generalizing q with
  | nil => simp [others]
  | cons q' qs ih =>
    simp only [List.map_cons, List.intercalate_cons_cons] at ih ⊢
    rw [ih, others, others, List.flatMap_cons, List.append_assoc, List.append_assoc]

theorem rel_of_others_eq {qs qs' : List (Expr ResolvedPredicate)}
    (hp : ∀ q ∈ qs, ∀ p ∈ q.leaves, p.Plain r) (hp' : ∀ q ∈ qs', ∀ p ∈ q.leaves, p.Plain r)
    (htext : others qs = others qs')
    (hvalues : (qs.flatMap fun q => (ofExpr q).values) = qs'.flatMap fun q => (ofExpr q).values) :
    List.Forall₂ (Expr.Rel ResolvedPredicate.SameTest) qs qs' := by
  induction qs generalizing qs' with
  | nil =>
    cases qs' with
    | nil => exact .nil
    | cons q' qs' => cases htext
  | cons q qs ih =>
    cases qs' with
    | nil => cases htext
    | cons q' qs' =>
      rw [others, others, List.flatMap_cons, List.flatMap_cons, List.append_assoc,
        List.append_assoc] at htext
      rw [List.flatMap_cons, List.flatMap_cons] at hvalues
      obtain ⟨hp, hps⟩ := List.forall_mem_cons.mp hp
      obtain ⟨hp', hps'⟩ := List.forall_mem_cons.mp hp'
      obtain ⟨hrel, hothers, hvs⟩ :=
        endTogether hp hp' _ _ _ _ (List.append_cancel_left htext) hvalues
      exact .cons hrel (ih hps hps' hothers hvs)

theorem toList_fragmentOf_ne_nil (e : Expr ResolvedPredicate) : (fragmentOf e).toList ≠ [] := by
  cases e with
  | leaf p =>
    rw [fragmentOf, toList_testFragment]
    simp
  | and l r => simp [fragmentOf, String.toList_append]
  | or l r => simp [fragmentOf, String.toList_append]

/-- **Joined conditions can be taken apart**: the text and all values together
tell how many conditions there are, and the tree of each. -/
theorem rel_of_joined_eq {qs qs' : List (Expr ResolvedPredicate)}
    (hp : ∀ q ∈ qs, ∀ p ∈ q.leaves, p.Plain r) (hp' : ∀ q ∈ qs', ∀ p ∈ q.leaves, p.Plain r)
    (htext : " AND ".intercalate (qs.map fragmentOf) = " AND ".intercalate (qs'.map fragmentOf))
    (hvalues : (qs.flatMap fun q => (ofExpr q).values) = qs'.flatMap fun q => (ofExpr q).values) :
    List.Forall₂ (Expr.Rel ResolvedPredicate.SameTest) qs qs' := by
  have hchars := congrArg String.toList htext
  cases qs with
  | nil =>
    cases qs' with
    | nil => exact .nil
    | cons q' qs' =>
      rw [toList_joined] at hchars
      exact absurd (List.append_eq_nil_iff.mp hchars.symm).1 (toList_fragmentOf_ne_nil q')
  | cons q qs =>
    cases qs' with
    | nil =>
      rw [toList_joined] at hchars
      exact absurd (List.append_eq_nil_iff.mp hchars).1 (toList_fragmentOf_ne_nil q)
    | cons q' qs' =>
      rw [toList_joined, toList_joined] at hchars
      refine rel_of_others_eq hp hp' ?_ hvalues
      rw [others, others, List.flatMap_cons, List.flatMap_cons, List.append_assoc,
        List.append_assoc]
      exact congrArg (" AND ".toList ++ ·) hchars

end Condition

/-! ## Filters -/

/-- The text is a filter for the record type, and this is its condition. -/
def RecordType.Accepts (r : RecordType) (text : String) (c : Condition) : Prop :=
  ∃ limits, compileFilter r limits text = .ok c

/-- The text is a filter for the record type, and this is its resolved tree. -/
def RecordType.Validates (r : RecordType) (text : String) (q : Expr ResolvedPredicate) : Prop :=
  ∃ limits e, parse limits text = .ok e ∧ e.resolve r = .ok q

theorem RecordType.validates_of_accepts {r : RecordType} {texts : List String}
    {cs : List Condition} (h : List.Forall₂ r.Accepts texts cs) :
    ∃ qs, List.Forall₂ r.Validates texts qs ∧ cs = qs.map .ofExpr := by
  induction h with
  | nil => exact ⟨[], .nil, rfl⟩
  | cons hc _ ih =>
    obtain ⟨limits, hc⟩ := hc
    obtain ⟨e, q, he, hq, rfl⟩ := compileFilter_eq_ok.mp hc
    obtain ⟨qs, hqs, rfl⟩ := ih
    exact ⟨q :: qs, .cons ⟨limits, e, he, hq⟩ hqs, rfl⟩

/-- Fields without columns of their own, in a record type without a qualifier,
stand for the columns of their names. -/
theorem RecordType.Validates.plain {d : RecordDeclaration} {r : RecordType} {text : String}
    {q : Expr ResolvedPredicate} (h : r.Validates text q) (hr : d.resolve = .ok r)
    (hqualifier : d.qualifier = none) (hcolumns : ∀ fd ∈ d.fields, fd.column = none) :
    ∀ p ∈ q.leaves, p.Plain r := by
  obtain ⟨limits, e, -, hq⟩ := h
  intro p hp
  obtain ⟨p₀, -, hres⟩ := exists_of_mem_right (Expr.resolves_of_resolve hq).leaves hp
  obtain ⟨hname, fd, hfd, hdeclares⟩ := RecordType.exists_declares hr hres.field
  have hcolumn : p.field.column = p.field.name := by
    rw [hdeclares.column, hdeclares.name]
    simp [FieldDeclaration.resolvedColumn, hcolumns fd hfd, hqualifier]
  refine ⟨?_, ?_⟩
  · rw [hcolumn]
    exact hdeclares.named
  · rw [hcolumn, hname]
    exact hres.field

/-- **Conditions are read in only one way**: where columns are field names, two
lists of filters whose conditions, joined with AND, have one text and the same
values are as long as each other and have the same resolved trees, place by
place. -/
theorem rel_of_joined_conditions_eq {d : RecordDeclaration} {r : RecordType}
    {texts texts' : List String} {cs cs' : List Condition} (hr : d.resolve = .ok r)
    (hqualifier : d.qualifier = none) (hcolumns : ∀ fd ∈ d.fields, fd.column = none)
    (hc : List.Forall₂ r.Accepts texts cs) (hc' : List.Forall₂ r.Accepts texts' cs')
    (htext : " AND ".intercalate (cs.map (·.fragment)) = " AND ".intercalate (cs'.map (·.fragment)))
    (hvalues : cs.flatMap (·.values) = cs'.flatMap (·.values)) :
    texts.length = texts'.length ∧
      ∃ qs qs', List.Forall₂ r.Validates texts qs ∧ List.Forall₂ r.Validates texts' qs' ∧
        cs = qs.map .ofExpr ∧ cs' = qs'.map .ofExpr ∧
        List.Forall₂ (Expr.Rel ResolvedPredicate.SameTest) qs qs' := by
  obtain ⟨qs, hqs, rfl⟩ := RecordType.validates_of_accepts hc
  obtain ⟨qs', hqs', rfl⟩ := RecordType.validates_of_accepts hc'
  have hplain : ∀ {texts : List String} {qs : List (Expr ResolvedPredicate)},
      List.Forall₂ r.Validates texts qs → ∀ q ∈ qs, ∀ p ∈ q.leaves, p.Plain r := by
    intro texts qs h q hq
    obtain ⟨text, -, htext⟩ := exists_of_mem_right h hq
    exact htext.plain hr hqualifier hcolumns
  have hrel : List.Forall₂ (Expr.Rel ResolvedPredicate.SameTest) qs qs' := by
    refine Condition.rel_of_joined_eq (hplain hqs) (hplain hqs') ?_ ?_
    · rwa [List.map_map, List.map_map] at htext
    · rwa [List.flatMap_map, List.flatMap_map] at hvalues
  refine ⟨?_, qs, qs', hqs, hqs', rfl, rfl, hrel⟩
  rw [hqs.length_eq, hrel.length_eq, hqs'.length_eq]

/-- Parentheses that change nothing leave no trace, and searches at the start and
at the end that bind one pattern are not told apart. -/
theorem rel_of_joined_conditions_eq_or :
    let d : RecordDeclaration :=
      { name := "user", fields := [{ name := "name", type := .string }] }
    let r : RecordType := ⟨"user", none, none, [⟨"name", "name", .string, .allFor .string, false⟩]⟩
    let texts := ["name = 'a' OR name $null", "name $sw ''"]
    let texts' := ["(name = 'a') OR name $null", "name $ew ''"]
    let cs : List Condition := [⟨"(name = ? OR name IS NULL)", [.string "a"]⟩,
      ⟨"name LIKE ? ESCAPE '\\'", [.string "%"]⟩]
    d.resolve = .ok r ∧ List.Forall₂ r.Accepts texts cs ∧ List.Forall₂ r.Accepts texts' cs ∧
      ∃ qs qs', List.Forall₂ r.Validates texts qs ∧ List.Forall₂ r.Validates texts' qs' ∧
        List.Forall₂ (Expr.Rel ResolvedPredicate.SameTest) qs qs' := by
  intro d r texts texts' cs
  have hr : d.resolve = .ok r := by decide +kernel
  have hc : List.Forall₂ r.Accepts texts cs :=
    .cons ⟨{}, by decide +kernel⟩ (.cons ⟨{}, by decide +kernel⟩ .nil)
  have hc' : List.Forall₂ r.Accepts texts' cs :=
    .cons ⟨{}, by decide +kernel⟩ (.cons ⟨{}, by decide +kernel⟩ .nil)
  obtain ⟨-, qs, qs', hqs, hqs', -, -, hrel⟩ :=
    rel_of_joined_conditions_eq hr rfl (by decide) hc hc' rfl rfl
  exact ⟨hr, hc, hc', qs, qs', hqs, hqs', hrel⟩

end RecordQuery
