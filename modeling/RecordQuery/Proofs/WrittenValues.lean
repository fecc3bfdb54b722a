import Mathlib.Data.List.Induction
import RecordQuery.Proofs.Composition
import RecordQuery.Proofs.Declaration
import RecordQuery.Proofs.WrittenLiterals

/-!
# Values in filters

A filter that compares a field with a written value binds that value and nothing
else, whatever the value is; and a filter with a list of written values binds
these. No value is out of reach of a filter, and none is changed on its way.
-/

namespace RecordQuery

open Grammar Outcome Text

/-! ## Names and operators -/

namespace Lexed

/-- The name of a field is one token. -/
theorem consists_name {name : List Char} (h : isFieldName name = true) :
    Consists 0 name [⟨.name, name, false, 0⟩] := by
  obtain ⟨c, cs, rfl, hstart, hpart, hreserved⟩ := exists_cons_of_isFieldName h
  have hall : ∀ d ∈ c :: cs, isNamePart d = true :=
    List.forall_mem_cons.mpr ⟨isNamePart_of_isNameStart hstart, List.all_eq_true.mp hpart⟩
  simp only [isReservedWord, Bool.or_eq_false_iff] at hreserved
  have hkind : LeadingToken.wordKind (c :: cs) = .name := by
    simp [LeadingToken.wordKind, hreserved]
  refine consists_of_read ?_
  rw [LeadingToken.read_of_isNameStart hstart, LeadingToken.word,
    List.takeWhile_eq_self_iff.mpr hall, List.dropWhile_eq_nil_iff.mpr hall, hkind]
  rfl

/-- The symbol of an operator is one token. -/
theorem consists_symbol (op : Operator) :
    Consists 0 op.symbol.toList [⟨.operator op, op.symbol.toList, false, 0⟩] := by
  have hall : ∀ op ∈ Operator.all,
      Consists 0 op.symbol.toList [⟨.operator op, op.symbol.toList, false, 0⟩] := by decide +kernel
  exact hall op (Operator.mem_all op)

/-- A name, an operator, and what comes after them. -/
theorem consists_predicate {name cs : List Char} {ts : List Token} (hname : isFieldName name = true)
    (op : Operator) (h : Consists 0 cs ts) :
    ∃ (t o : Token) (n : Nat), t.kind = .name ∧ t.lexeme = name ∧ o.kind = .operator op ∧
      Consists 0 (name ++ ' ' :: (op.symbol.toList ++ ' ' :: cs))
        (t :: o :: ts.map (Token.moved n)) := by
  obtain ⟨m, n, htext⟩ := (consists_name hname).between (consists_symbol op) h
  exact ⟨_, _, n, rfl, rfl, rfl, htext⟩

end Lexed

/-! ## Lists -/

namespace Datum

/-- The characters are literals with commas between them, and these denote the
values for fields of the type. -/
def ListedBy (type : FieldType) (vs : List Datum) (cs : List Char) : Prop :=
  ∃ ts ls, Lexed.Consists 0 cs ts ∧ Listed ts ls ∧
    List.Forall₂ (fun l v => l.datum? type = some v) ls vs

variable {v : Datum} {vs : List Datum} {cs ds : List Char}

theorem SpelledBy.listedBy (h : v.SpelledBy cs) : ListedBy v.type [v] cs := by
  obtain ⟨t, l, ht, hvalue, hl⟩ := h
  exact ⟨[t], [l], ht, .one hvalue, .cons hl .nil⟩

theorem ListedBy.concat (h : ListedBy v.type vs cs) (hv : v.SpelledBy ds) :
    ListedBy v.type (vs ++ [v]) (cs ++ ',' :: ' ' :: ds) := by
  obtain ⟨ts, ls, hts, hlisted, hls⟩ := h
  obtain ⟨t, l, ht, hvalue, hl⟩ := hv
  exact ⟨_, _, hts.commaBetween ht, .more hlisted rfl (hvalue.moved _),
    List.rel_append hls (.cons hl .nil)⟩

/-- Values with commas between them. -/
def listText (v : Datum) (vs : List Datum) : List Char :=
  v.filterText.toList ++ vs.flatMap fun w => ',' :: ' ' :: w.filterText.toList

theorem toList_intercalate (v : Datum) (vs : List Datum) :
    (", ".intercalate ((v :: vs).map filterText)).toList = listText v vs := by
  rw [String.toList_intercalate]
  induction vs generalizing v with
  | nil => simp [listText]
  | cons w ws ih =>
    simp only [List.map_cons, List.intercalate_cons_cons] at ih ⊢
    rw [ih w]
    simp [listText]

/-- Every list of values of one type can be written, unless they are points in time. -/
theorem listedBy_listText {type : FieldType} (htype : type ≠ .timestamp) (hv : v.type = type)
    (hvs : ∀ w ∈ vs, w.type = type) : ListedBy type (v :: vs) (listText v vs) := by
  induction vs using List.reverseRecOn with
  | nil =>
    subst hv
    rw [listText, List.flatMap_nil, List.append_nil]
    exact (spelledBy_filterText htype).listedBy
  | append_singleton ws w ih =>
    obtain ⟨hws, hw⟩ := List.forall_mem_append.mp hvs
    have hlast : w.type = type := hw w List.mem_cons_self
    have htext : listText v (ws ++ [w]) = listText v ws ++ ',' :: ' ' :: w.filterText.toList := by
      simp [listText]
    have hbefore := ih hws
    rw [← hlast] at htype hbefore ⊢
    rw [htext]
    exact hbefore.concat (spelledBy_filterText htype)

end Datum

/-! ## Predicates -/

theorem Predicate.resolve_eq_ok {r : RecordType} {p : Predicate} {f : Field} {test : Test Datum}
    (hf : r.field? p.field = some f) (hop : f.operators.contains p.test.operator = true)
    (htest : f.resolveTest p.test = .ok test) : p.resolve r = .ok ⟨f, test⟩ := by
  simp [Predicate.resolve, hf, hop, htest, Except.map]

namespace Spells

variable {r : RecordType} {f : Field} {cs : List Char} {v : Datum} {vs : List Datum}

/-- A predicate that is written with single spaces. Its values may stand at any place. -/
theorem predicate {ts : List Token} (test : Test Literal) {test' : Test Datum}
    (hname : isFieldName f.name.toList = true) (hf : r.field? f.name = some f)
    (hop : f.operators.contains test.operator = true) (htest : f.resolveTest test = .ok test')
    (h : Lexed.Consists 0 cs ts)
    (hleaf : ∀ (t o : Token) (n : Nat), t.kind = .name → o.kind = .operator test.operator →
      Leaf (t :: o :: ts.map (Token.moved n))
        ⟨String.ofList t.lexeme, t.position, test.map (Literal.moved n)⟩) :
    Spells r .term (f.name.toList ++ ' ' :: (test.operator.symbol.toList ++ ' ' :: cs))
      (.leaf ⟨f, test'⟩) ⟨1, 0, Demand.listLength ts⟩ := by
  obtain ⟨t, o, n, ht, hlexeme, ho, htext⟩ := Lexed.consists_predicate hname test.operator h
  have hp := hleaf t o n ht ho
  refine ⟨_, _, htext, .predicate hp, map_eq_ok.mpr ⟨_, ?_, rfl⟩, ?_⟩
  · refine Predicate.resolve_eq_ok ?_ ?_ ?_
    · rwa [hlexeme, String.ofList_toList]
    · rwa [Test.operator_map]
    · rwa [Field.resolveTest_moved]
  · rw [Demand.ofTokens_leaf hp]
    exact congrArg (Demand.mk 1 0) (Demand.listLength_map (f := Token.moved n) (fun _ => rfl) ts)

/-- A comparison with a written value asks for the value. -/
theorem compare {c : Comparison} (hname : isFieldName f.name.toList = true)
    (hf : r.field? f.name = some f) (hop : f.operators.contains (.compare c) = true)
    (hv : v.SpelledBy cs) (htype : v.type = f.type) :
    Spells r .term
      (f.name.toList ++ ' ' :: ((Operator.compare c).symbol.toList ++ ' ' :: cs))
      (.leaf ⟨f, .compare c v⟩) ⟨1, 0, 0⟩ := by
  obtain ⟨t, l, ht, hvalue, hl⟩ := hv
  rw [htype] at hl
  have hcoerce := Field.coerce_eq_ok_iff.mpr hl
  have hspells := predicate (.compare c l) hname hf hop (map_eq_ok.mpr ⟨v, hcoerce, rfl⟩)
    ht fun _ _ n hn ho => .compare hn ho (hvalue.moved n)
  rwa [Demand.listLength_value hvalue] at hspells

/-- A list of written values asks for the values. -/
theorem isIn (hname : isFieldName f.name.toList = true) (hf : r.field? f.name = some f)
    (hop : f.operators.contains .isIn = true) (hvs : Datum.ListedBy f.type vs cs) :
    Spells r .term
      (f.name.toList ++ ' ' :: (Operator.isIn.symbol.toList ++ ' ' :: ('(' :: (cs ++ [')']))))
      (.leaf ⟨f, .isIn vs⟩) ⟨1, 0, vs.length⟩ := by
  obtain ⟨ts, ls, hts, hlisted, hls⟩ := hvs
  have hlisted' := hlisted.moved 1
  have hcoerce : ls.mapM f.coerce = .ok vs :=
    mapM_eq_ok.mpr (hls.imp fun _ _ => Field.coerce_eq_ok_iff.mpr)
  have htest : f.resolveTest (.isIn (ls.map (Literal.moved 1))) = .ok (.isIn vs) :=
    (f.resolveTest_moved 1 (.isIn ls)).trans (map_eq_ok.mpr ⟨vs, hcoerce, rfl⟩)
  have hspells := predicate (.isIn (ls.map (Literal.moved 1))) hname hf hop htest
    (hts.parenthesized Lexed.consists_nil)
    fun _ _ n hn ho => .isIn hn ho ((Values.list rfl hlisted' rfl).moved n)
  rwa [Demand.listLength_list rfl hlisted' rfl, List.length_map, hls.length_eq] at hspells

end Spells

/-- **Every value can be written and arrives unchanged**: a field that is no point
in time can be compared with every value of its type, and with every list of
them, and the condition binds the values that are written. -/
theorem compileFilter_written {decl : RecordDeclaration} {r : RecordType} {f : Field}
    (hr : decl.resolve = .ok r) (hf : f ∈ r.fields) (htype : f.type ≠ .timestamp) :
    (∀ (c : Comparison) (v : Datum) (limits : Limits), f.operators.contains (.compare c) = true →
        v.type = f.type → 1 ≤ limits.predicates →
        compileFilter r limits
            (f.name ++ " " ++ (Operator.compare c).symbol ++ " " ++ v.filterText) =
          .ok ⟨f.column ++ " " ++ c.sql ++ " ?", [v]⟩) ∧
      ∀ (vs : List Datum) (limits : Limits), f.operators.contains .isIn = true → vs ≠ [] →
        (∀ v ∈ vs, v.type = f.type) → vs.length ≤ limits.listValues → 1 ≤ limits.predicates →
        compileFilter r limits
            (f.name ++ " $in (" ++ ", ".intercalate (vs.map Datum.filterText) ++ ")") =
          .ok ⟨f.column ++ " IN (" ++ ", ".intercalate (vs.map fun _ => "?") ++ ")", vs⟩ := by
  obtain ⟨fd, -, hdeclares⟩ := exists_of_mem_right (RecordDeclaration.declares_of_resolve hr) hf
  have hname := hdeclares.named
  have hfield := RecordType.field?_of_mem hr hf
  constructor
  · intro c v limits hop hv hlimits
    have hspelled : v.SpelledBy v.filterText.toList := Datum.spelledBy_filterText (hv ▸ htype)
    have htext := (Spells.compare hname hfield hop hspelled hv).ofTerm.ofAndExpr
    have hroom : limits.Allow ⟨1, 0, 0⟩ := ⟨hlimits, Nat.zero_le _, Nat.zero_le _⟩
    have hcondition : Condition.ofExpr (.leaf ⟨f, .compare c v⟩) =
        ⟨f.column ++ " " ++ c.sql ++ " ?", [v]⟩ := rfl
    rw [← hcondition]
    exact Spells.compileFilter (by simpa [String.toList_append] using htext) hroom
  · intro vs limits hop hne hvs hlength hlimits
    obtain ⟨v, ws, rfl⟩ := List.exists_cons_of_ne_nil hne
    obtain ⟨hv, hws⟩ := List.forall_mem_cons.mp hvs
    have hlisted := Datum.listedBy_listText htype hv hws
    have htext := (Spells.isIn hname hfield hop hlisted).ofTerm.ofAndExpr
    have hroom : limits.Allow ⟨1, 0, (v :: ws).length⟩ := ⟨hlimits, Nat.zero_le _, hlength⟩
    have hcondition : Condition.ofExpr (.leaf ⟨f, .isIn (v :: ws)⟩) =
        ⟨f.column ++ " IN (" ++ ", ".intercalate ((v :: ws).map fun _ => "?") ++ ")", v :: ws⟩ :=
      congrArg (Condition.mk _) (Condition.values_leaf ⟨f, .isIn (v :: ws)⟩)
    have hsymbol : Operator.isIn.symbol = "$in" := rfl
    rw [hsymbol] at htext
    rw [← hcondition]
    refine Spells.compileFilter ?_ hroom
    rw [String.toList_append, String.toList_append, String.toList_append,
      Datum.toList_intercalate v ws]
    simpa using htext

/-- Quotes at both edges, a text in the form of a timestamp, the least integer, and
decimals that end in zeros. -/
theorem compileFilter_written_edges :
    let decl : RecordDeclaration :=
      { name := "item", fields := [{ name := "label", type := .string },
          { name := "stock", type := .integer }, { name := "price", type := .decimal }] }
    let label : Field := ⟨"label", "label", .string, .allFor .string, false⟩
    let stock : Field := ⟨"stock", "stock", .integer, .allFor .integer, false⟩
    let price : Field := ⟨"price", "price", .decimal, .allFor .decimal, false⟩
    let r : RecordType := ⟨"item", none, none, [label, stock, price]⟩
    let quoted : Datum := .string "' OR ''?''"
    let dated : Datum := .string "2024-01-01"
    let least : Datum := .integer Int64.minValue
    let one : Datum := .decimal ⟨true, 100, 2, by decide, by decide, nofun⟩
    let zero : Datum := .decimal ⟨false, 0, 3, by decide, by decide, fun _ => rfl⟩
    decl.resolve = .ok r ∧
      [quoted, dated, least, one, zero].map Datum.filterText =
        ["''' OR ''''?'''''", "'2024-01-01'", "-9223372036854775808", "-1.00", "0.000"] ∧
      compileFilter r {} ("label $in (" ++ ", ".intercalate ([quoted, dated].map Datum.filterText) ++
        ")") = .ok ⟨"label IN (?, ?)", [quoted, dated]⟩ ∧
      compileFilter r {} ("stock <= " ++ least.filterText) = .ok ⟨"stock <= ?", [least]⟩ ∧
      compileFilter r {} ("price $in (" ++ ", ".intercalate ([one, zero].map Datum.filterText) ++
        ")") = .ok ⟨"price IN (?, ?)", [one, zero]⟩ := by
  intro decl label stock price r quoted dated least one zero
  have hr : decl.resolve = .ok r := by decide +kernel
  have hlabel := (compileFilter_written hr (f := label) (by decide) (by decide)).2 [quoted, dated]
    {} (by decide) (by decide) (by decide) (by decide) (by decide)
  have hstock := (compileFilter_written hr (f := stock) (by decide) (by decide)).1 .lessOrEqual
    least {} (by decide) rfl (by decide)
  have hprice := (compileFilter_written hr (f := price) (by decide) (by decide)).2 [one, zero] {}
    (by decide) (by decide) (by decide) (by decide) (by decide)
  exact ⟨hr, by decide +kernel, hlabel, hstock, hprice⟩

end RecordQuery
