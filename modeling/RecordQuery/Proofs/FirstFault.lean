import RecordQuery.Proofs.Agreement

/-!
# The first fault of a filter

Predicates are resolved all or none. A filter that can be read compiles if and only if each
predicate fits the record type by itself; otherwise it is refused for the fault of the first
predicate of the text that does not, whatever is at fault behind it and however the predicates
are grouped. Leaves of the tree are in the order of the text, so the first of them at fault is
the one with the least position.
-/

namespace RecordQuery

open Outcome Text

/-! ## Values of a field -/

namespace Field

variable {f : Field} {op : Operator} {l : Literal}

/-- An operator that applies to the field binds whatever is a value of the field. -/
theorem exists_bound_of_datum? (happlies : op.appliesTo f.type = true) {v : Datum}
    (h : l.datum? f.type = some v) : ∃ w, f.bound op l = .ok w := by
  have hcoerce : f.coerce l = .ok v := by rw [coerce, h]
  cases op with
  | pattern place =>
    -- only strings are searched, and a string makes a pattern
    have htype : v.type = .string :=
      (type_of_coerce hcoerce).trans (Operator.type_eq_string rfl happlies)
    obtain ⟨s, rfl⟩ := Datum.eq_string htype
    exact ⟨_, by rw [bound, coercePattern, hcoerce]⟩
  | compare | null | notNull | isIn => exact ⟨v, hcoerce⟩

theorem bound_of_datum?_eq_none (h : l.datum? f.type = none) :
    f.bound op l = .error (f.mismatch l f.type) := by
  have hcoerce := coerce_of_datum?_eq_none h
  cases op with
  | pattern place => rw [bound, coercePattern, hcoerce]
  | compare | null | notNull | isIn => exact hcoerce

theorem exists_bound_iff (happlies : op.appliesTo f.type = true) :
    (∃ w, f.bound op l = .ok w) ↔ ∃ v, l.datum? f.type = some v := by
  constructor
  · rintro ⟨w, hw⟩
    refine Option.ne_none_iff_exists'.mp fun hnone => ?_
    cases hw.symm.trans (bound_of_datum?_eq_none hnone)
  · rintro ⟨v, hv⟩
    exact exists_bound_of_datum? happlies hv

theorem bound_eq_error (happlies : op.appliesTo f.type = true) {err : QueryError} :
    f.bound op l = .error err ↔ l.datum? f.type = none ∧ err = f.mismatch l f.type := by
  cases h : l.datum? f.type with
  | none => simp [bound_of_datum?_eq_none h, eq_comm]
  | some v =>
    obtain ⟨w, hw⟩ := exists_bound_of_datum? happlies h
    simp [hw]

end Field

/-! ## Predicates -/

namespace Predicate

/-- The predicate is as the record type has it: the field is declared and allows the operator,
and every literal is a value of the field. -/
def Fits (r : RecordType) (p : Predicate) : Prop :=
  ∃ f ∈ r.fields, f.name = p.field ∧ f.operators.contains p.test.operator = true ∧
    ∀ l ∈ p.test.values, ∃ v, l.datum? f.type = some v

/-- What is at fault with a predicate: the field, or else the operator, or else the first literal
of its list that is no value of the field. -/
inductive Fault (r : RecordType) (p : Predicate) : QueryError → Prop where
  | unknownField (undeclared : ∀ f ∈ r.fields, f.name ≠ p.field) : Fault r p (.unknownField p.field)
  | operatorNotAllowed {f : Field} (declared : f ∈ r.fields) (named : f.name = p.field)
      (refused : f.operators.contains p.test.operator = false) :
      Fault r p (.operatorNotAllowed p.field p.test.operator)
  | typeMismatch {f : Field} {before after : List Literal} {l : Literal} (declared : f ∈ r.fields)
      (named : f.name = p.field) (allowed : f.operators.contains p.test.operator = true)
      (literals : p.test.values = before ++ l :: after)
      (values : ∀ k ∈ before, ∃ v, k.datum? f.type = some v) (mismatch : l.datum? f.type = none) :
      Fault r p (.typeMismatch p.field (String.ofList l.display) f.type)

variable {d : RecordDeclaration} {r : RecordType} {p : Predicate} {err : QueryError}

/-- Resolving a predicate fails for what is at fault with it. -/
theorem resolve_eq_error (hr : d.resolve = .ok r) : p.resolve r = .error err ↔ p.Fault r err := by
  have hfield {f : Field} : r.field? p.field = some f ↔ f ∈ r.fields ∧ f.name = p.field :=
    RecordType.field?_eq_some_iff hr
  constructor
  · intro h
    unfold Predicate.resolve at h
    split at h
    · rename_i hnone
      cases h
      exact .unknownField (RecordType.field?_eq_none_iff.mp hnone)
    · rename_i f hf
      obtain ⟨hmem, hname⟩ := hfield.mp hf
      split at h
      · rename_i hop
        obtain ⟨-, fd, -, hdeclares⟩ := RecordType.exists_declares hr hf
        have happlies := hdeclares.applies _ hop
        obtain ⟨before, l, after, hvalues, hbefore, hl⟩ :=
          Field.resolveTest_eq_error.mp (map_eq_error.mp h)
        obtain ⟨hmismatch, rfl⟩ := (Field.bound_eq_error happlies).mp hl
        rw [Field.mismatch, hname]
        exact .typeMismatch hmem hname hop hvalues
          (fun k hk => (Field.exists_bound_iff happlies).mp (hbefore k hk)) hmismatch
      · rename_i hop
        cases h
        rw [hname]
        exact .operatorNotAllowed hmem hname (Bool.eq_false_iff.mpr hop)
  · intro h
    cases h with
    | unknownField undeclared =>
      rw [Predicate.resolve, RecordType.field?_eq_none_iff.mpr undeclared]
    | operatorNotAllowed declared named refused =>
      rw [Predicate.resolve, hfield.mpr ⟨declared, named⟩]
      simp only [refused, named, Bool.false_eq_true, if_false]
    | @typeMismatch f before after l declared named allowed literals values mismatch =>
      have hf := hfield.mpr ⟨declared, named⟩
      obtain ⟨-, fd, -, hdeclares⟩ := RecordType.exists_declares hr hf
      have happlies := hdeclares.applies _ allowed
      rw [Predicate.resolve, hf]
      simp only [allowed, if_true]
      refine map_eq_error.mpr (Field.resolveTest_eq_error.mpr ⟨before, l, after, literals, ?_, ?_⟩)
      · exact fun k hk => (Field.exists_bound_iff happlies).mpr (values k hk)
      · rw [Field.bound_of_datum?_eq_none mismatch, Field.mismatch, named]

/-- Nothing is at fault with a predicate that fits. -/
theorem Fits.not_fault (hr : d.resolve = .ok r) (h : p.Fits r) : ¬ p.Fault r err := by
  obtain ⟨f, hf, hname, hop, hvalues⟩ := h
  have hunique {g : Field} (hg : g ∈ r.fields) (hgname : g.name = p.field) : g = f :=
    RecordType.eq_of_name_eq hr hg hf (hgname.trans hname.symm)
  intro hfault
  cases hfault with
  | unknownField undeclared => exact undeclared f hf hname
  | operatorNotAllowed declared named refused =>
    obtain rfl := hunique declared named
    cases hop.symm.trans refused
  | @typeMismatch g before after l declared named allowed literals values mismatch =>
    obtain rfl := hunique declared named
    obtain ⟨v, hv⟩ := hvalues l (by simp [literals])
    cases hv.symm.trans mismatch

/-- A predicate resolves if it fits. -/
theorem exists_resolve_iff (hr : d.resolve = .ok r) : (∃ q, p.resolve r = .ok q) ↔ p.Fits r := by
  constructor
  · rintro ⟨q, hq⟩
    have hres := resolves_of_resolve hq
    obtain ⟨hmem, hname⟩ := (RecordType.field?_eq_some_iff hr).mp hres.field
    obtain ⟨-, fd, -, hdeclares⟩ := RecordType.exists_declares hr hres.field
    have happlies := hdeclares.applies _ hres.allowed
    refine ⟨q.field, hmem, hname, hres.allowed, fun l hl => ?_⟩
    obtain ⟨v, -, hv⟩ := exists_of_mem_left hres.values hl
    exact (Field.exists_bound_iff happlies).mp ⟨v, hv⟩
  · intro h
    cases hp : p.resolve r with
    | ok q => exact ⟨q, rfl⟩
    | error err => exact absurd ((resolve_eq_error hr).mp hp) (h.not_fault hr)

/-- The name of the field stands in the text at the position of the predicate. -/
def StandsIn (p : Predicate) (text : String) : Prop :=
  ∃ before after, text.toList = before ++ p.field.toList ++ after ∧ byteLength before = p.position

end Predicate

/-! ## Filters -/

/-- Leaves stand in the text where their positions say, each behind the one before it. -/
theorem leaves_of_parse {limits : Limits} {text : String} {e : Expr Predicate}
    (h : parse limits text = .ok e) :
    (∀ p ∈ e.leaves, p.StandsIn text) ∧
      e.leaves.Pairwise fun p p' => p.position < p'.position := by
  obtain ⟨ns, hns, hnames⟩ := (Parser.derives_of_parse h).2.exists_names
  constructor
  · intro p hp
    obtain ⟨n, hn, hkind, hfield, hposition⟩ := exists_of_mem_right hnames hp
    have htoken := hns.subset hn
    obtain ⟨before, after, htext, hbefore⟩ := Lexed.exists_append_spelling htoken
    refine ⟨before, after, ?_, ?_⟩
    · rw [htext, Lexed.spelling_of_name htoken hkind, hfield, String.toList_ofList]
    · rw [hposition, hbefore, Nat.zero_add]
  · have hpositions : List.Forall₂ (fun n p => n.position = p.position) ns e.leaves :=
      hnames.imp fun _ _ hname => hname.2.2.symm
    have hordered := (Lexed.pairwise_position 0 text.toList).sublist hns
    exact pairwise_of_forall₂ (S := (· < ·)) hpositions hordered

/-- In a list that is ordered by position, the first fault is that of the value at fault with
the least position. -/
theorem firstFault_iff_least {r : RecordType} {d : RecordDeclaration} (hr : d.resolve = .ok r)
    {ps : List Predicate} (hordered : ps.Pairwise fun p p' => p.position < p'.position)
    {err : QueryError} : FirstFault (Predicate.resolve r) ps err ↔
      ∃ p ∈ ps, p.Fault r err ∧ ∀ p' ∈ ps, ¬ p'.Fits r → p.position ≤ p'.position := by
  constructor
  · rintro ⟨before, p, after, rfl, hbefore, hp⟩
    obtain ⟨-, hafter, -⟩ := List.pairwise_append.mp hordered
    refine ⟨p, by simp, (Predicate.resolve_eq_error hr).mp hp, fun p' hp' hfits => ?_⟩
    rcases List.mem_append.mp hp' with hp' | hp'
    · exact absurd ((Predicate.exists_resolve_iff hr).mp (hbefore p' hp')) hfits
    · rcases List.mem_cons.mp hp' with rfl | hp'
      · exact Nat.le_refl _
      · exact Nat.le_of_lt ((List.pairwise_cons.mp hafter).1 p' hp')
  · rintro ⟨p, hp, hfault, hleast⟩
    obtain ⟨before, after, rfl⟩ := List.append_of_mem hp
    refine ⟨before, p, after, rfl, fun p' hp' => ?_, (Predicate.resolve_eq_error hr).mpr hfault⟩
    refine (Predicate.exists_resolve_iff hr).mpr (Classical.byContradiction fun hfits => ?_)
    -- what stands before the first fault has a lower position
    have hlt := (List.pairwise_append.mp hordered).2.2 p' hp' p List.mem_cons_self
    have hle := hleast p' (List.mem_append_left _ hp') hfits
    omega

theorem compileFilter_eq_error {r : RecordType} {limits : Limits} {text : String}
    {e : Expr Predicate} {err : QueryError} (he : parse limits text = .ok e) :
    compileFilter r limits text = .error err ↔ FirstFault (Predicate.resolve r) e.leaves err := by
  rw [← Expr.traverse_eq_error, compileFilter, bind_eq_error, he]
  constructor
  · rintro (h | ⟨e', ⟨⟩, h⟩)
    · cases h
    · rcases bind_eq_error.mp h with h | ⟨q, -, h⟩
      · exact h
      · cases h
  · intro h
    exact .inr ⟨e, rfl, bind_eq_error.mpr (.inl h)⟩

/-- How the outcome for a filter follows from its leaves, each looked at by itself. -/
structure JudgedByLeaves (r : RecordType) (text : String) (e : Expr Predicate)
    (outcome : Except QueryError Condition) : Prop where
  stands : ∀ p ∈ e.leaves, p.StandsIn text
  ordered : e.leaves.Pairwise fun p p' => p.position < p'.position
  accepted : (∃ c, outcome = .ok c) ↔ ∀ p ∈ e.leaves, p.Fits r
  /-- The tree is kept, with each leaf looked up. -/
  resolved : ∀ c, outcome = .ok c →
    ∃ q, e.resolve r = .ok q ∧ e.Rel (Predicate.Resolves r) q ∧ c = .ofExpr q
  refused : ∀ err, outcome = .error err ↔
    ∃ p ∈ e.leaves, p.Fault r err ∧ ∀ p' ∈ e.leaves, ¬ p'.Fits r → p.position ≤ p'.position

/-- **The first fault wins**: a filter compiles if all its leaves fit, and is otherwise refused for
what is at fault with the first of the text that does not. -/
theorem judged_of_parse {d : RecordDeclaration} {r : RecordType} {limits : Limits} {text : String}
    {e : Expr Predicate} (hr : d.resolve = .ok r) (he : parse limits text = .ok e) :
    JudgedByLeaves r text e (compileFilter r limits text) := by
  obtain ⟨hstands, hordered⟩ := leaves_of_parse he
  have herror (err : QueryError) : compileFilter r limits text = .error err ↔
      FirstFault (Predicate.resolve r) e.leaves err := compileFilter_eq_error he
  exact {
    stands := hstands
    ordered := hordered
    accepted := by
      rw [exists_ok_iff herror]
      exact forall₂_congr fun p _ => Predicate.exists_resolve_iff hr
    resolved := by
      intro c hc
      obtain ⟨e', q, he', hq, rfl⟩ := compileFilter_eq_ok.mp hc
      cases he'.symm.trans he
      exact ⟨q, hq, Expr.resolves_of_resolve hq, rfl⟩
    refused := fun err => (herror err).trans (firstFault_iff_least hr hordered) }

/-- A literal that is no number comes first, though a field that nobody declared is nearer to the
root of the tree. -/
theorem judged_of_parse_nested :
    let d : RecordDeclaration := { name := "user", fields := [{ name := "age", type := .integer }] }
    let r : RecordType := ⟨"user", none, none, [⟨"age", "age", .integer, .allFor .integer, false⟩]⟩
    let text := "(age = 1 OR age $in (2, 'x', 'y')) AND nick $null"
    let e : Expr Predicate := .and
      (.or (.leaf ⟨"age", 1, .compare .equal ⟨.number, ['1'], 7⟩⟩)
        (.leaf ⟨"age", 12,
          .isIn [⟨.number, ['2'], 21⟩, ⟨.string, ['x'], 24⟩, ⟨.string, ['y'], 29⟩]⟩))
      (.leaf ⟨"nick", 39, .null⟩)
    d.resolve = .ok r ∧ parse {} text = .ok e ∧
      JudgedByLeaves r text e (compileFilter r {} text) ∧
      compileFilter r {} text = .error (.typeMismatch "age" "'x'" .integer) := by
  intro d r text e
  have hr : d.resolve = .ok r := by decide +kernel
  have he : parse {} text = .ok e := by decide +kernel
  exact ⟨hr, he, judged_of_parse hr he, by decide +kernel⟩

end RecordQuery
