import RecordQuery.Proofs.Outcome
import RecordQuery.Schema.RecordType

/-!
# Valid declarations

Which declarations resolve, and to what, is said here without resolving them: the checks that
are made one after the other are conditions on the declaration as a whole, and a record type is
what is declared with the defaults filled in. Resolving gives a record type exactly for the
valid declarations, and no other than this one.
-/

namespace RecordQuery

open Outcome Text

/-! ## Names and SQL -/

/-- A word that filter text can name a field by. -/
structure Identifier (cs : List Char) : Prop where
  start : ∃ c, cs.head? = some c ∧ isNameStart c = true
  parts : ∀ c ∈ cs, isNamePart c = true
  /-- No reserved word, in any case. -/
  free : ∀ word ∈ ["and", "or", "true", "false"], sameWord cs word.toList = false

/-- SQL that ends no statement, opens no string or comment, and holds no placeholder. -/
structure SafeSql (cs : List Char) : Prop where
  notBlank : ∃ c ∈ cs, isBlank c = false
  noPlaceholder : '?' ∉ cs
  noQuote : '\'' ∉ cs
  noEnd : ';' ∉ cs
  noLineComment : ¬ ['-', '-'] <:+: cs
  noBlockComment : ¬ ['/', '*'] <:+: cs

theorem isFieldName_iff {cs : List Char} : isFieldName cs = true ↔ Identifier cs := by
  cases cs with
  | nil => exact iff_of_false nofun fun h => by simpa using h.start
  | cons c cs =>
    simp only [isFieldName, isReservedWord, Bool.and_eq_true, Bool.not_eq_true',
      Bool.or_eq_false_iff, List.all_eq_true]
    constructor
    · rintro ⟨⟨hstart, hparts⟩, ⟨⟨hand, hor⟩, htrue⟩, hfalse⟩
      exact {
        start := ⟨c, rfl, hstart⟩
        parts := List.forall_mem_cons.mpr ⟨isNamePart_of_isNameStart hstart, hparts⟩
        free := by simpa using ⟨hand, hor, htrue, hfalse⟩ }
    · intro h
      obtain ⟨c', hc, hstart⟩ := h.start
      cases hc
      have hfree := h.free
      simp only [List.forall_mem_cons] at hfree
      obtain ⟨hand, hor, htrue, hfalse, -⟩ := hfree
      exact ⟨⟨hstart, (List.forall_mem_cons.mp h.parts).2⟩, ⟨⟨hand, hor⟩, htrue⟩, hfalse⟩

theorem hasPair_iff {a b : Char} {cs : List Char} : hasPair a b cs = true ↔ [a, b] <:+: cs := by
  induction cs with
  | nil => simp [hasPair]
  | cons c cs ih =>
    rw [List.infix_cons_iff, ← ih]
    cases cs with
    | nil => simp [hasPair]
    | cons d cs =>
      have hfront : [a, b] <+: c :: d :: cs ↔ c = a ∧ d = b := by
        rw [List.cons_prefix_cons, List.cons_prefix_cons, and_iff_left List.nil_prefix,
          @eq_comm _ a, @eq_comm _ b]
      rw [hfront, hasPair, Bool.or_eq_true, Bool.and_eq_true, beq_iff_eq, beq_iff_eq]

theorem isSafeSql_iff {cs : List Char} : isSafeSql cs = true ↔ SafeSql cs := by
  have hpair (a b : Char) : hasPair a b cs = false ↔ ¬ [a, b] <:+: cs := by
    rw [← hasPair_iff, Bool.not_eq_true]
  simp only [isSafeSql, Bool.and_eq_true, Bool.not_eq_true', List.contains_eq_mem,
    decide_eq_false_iff_not, hpair, List.all_eq_false, Bool.not_eq_true]
  constructor
  · rintro ⟨⟨⟨⟨⟨hblank, hplaceholder⟩, hquote⟩, hend⟩, hline⟩, hblock⟩
    exact ⟨hblank, hplaceholder, hquote, hend, hline, hblock⟩
  · rintro ⟨hblank, hplaceholder, hquote, hend, hline, hblock⟩
    exact ⟨⟨⟨⟨⟨hblank, hplaceholder⟩, hquote⟩, hend⟩, hline⟩, hblock⟩

theorem checkSql_eq_ok {record : String} {place : SqlPlace} {sql : String} {u : Unit} :
    checkSql record place sql = .ok u ↔ SafeSql sql.toList := by
  rw [← isSafeSql_iff]
  unfold checkSql
  by_cases h : isSafeSql sql.toList = true
  · simp [h]
  · simp [h]

theorem checkSql?_eq_ok {record : String} {place : SqlPlace} {sql : Option String} {u : Unit} :
    checkSql? record place sql = .ok u ↔ ∀ text, sql = some text → SafeSql text.toList := by
  cases sql with
  | none => simp [checkSql?]
  | some text => simp [checkSql?, checkSql_eq_ok]

/-! ## Fields -/

namespace FieldDeclaration

/-- The field allows the operator: by its list, or because the operator applies to its type. -/
def Allows (d : FieldDeclaration) (op : Operator) : Prop :=
  match d.operators with
  | some ops => op ∈ ops
  | none => op.appliesTo d.type = true

instance (d : FieldDeclaration) (op : Operator) : Decidable (d.Allows op) := by
  unfold Allows
  split <;> infer_instance

/-- The SQL that the field stands for: the column that is declared for it, or else its own name,
behind the qualifier if there is one. -/
inductive StandsFor (d : FieldDeclaration) : Option String → String → Prop where
  | column {qualifier : Option String} {sql : String} (declared : d.column = some sql) :
      StandsFor d qualifier (trim sql)
  | qualified {qualifier : String} (undeclared : d.column = none) :
      StandsFor d (some qualifier) (trim qualifier ++ "." ++ d.name)
  | name (undeclared : d.column = none) : StandsFor d none d.name

/-- A declaration that is valid by itself. -/
structure Valid (d : FieldDeclaration) (qualifier : Option String) : Prop where
  name : Identifier d.name.toList
  column : ∀ sql, d.StandsFor qualifier sql → SafeSql sql.toList
  operators : ∀ ops, d.operators = some ops → ops ≠ [] ∧ ∀ op ∈ ops, op.appliesTo d.type = true

/-- The field is what is declared, with the defaults filled in. -/
structure Gives (d : FieldDeclaration) (qualifier : Option String) (f : Field) : Prop where
  name : f.name = d.name
  column : d.StandsFor qualifier f.column
  type : f.type = d.type
  orderable : f.orderable = d.orderable
  allows : ∀ op, f.operators.contains op = true ↔ d.Allows op

variable {d : FieldDeclaration} {qualifier : Option String} {record : String}
  {taken : List String} {f : Field}

theorem standsFor_iff {sql : String} :
    d.StandsFor qualifier sql ↔ d.resolvedColumn qualifier = sql := by
  constructor
  · intro h
    cases h with
    | column declared => simp [resolvedColumn, declared]
    | qualified undeclared | name undeclared => simp [resolvedColumn, undeclared]
  · rintro rfl
    unfold resolvedColumn
    split
    · rename_i hcolumn
      exact .column hcolumn
    · rename_i hcolumn
      exact .qualified hcolumn
    · rename_i hcolumn
      exact .name hcolumn

/-- Operators resolve if the list of them, where there is one, can be taken as it is. -/
theorem resolvedOperators_eq_ok {set : OperatorSet} : d.resolvedOperators record = .ok set ↔
    (∀ ops, d.operators = some ops → ops ≠ [] ∧ ∀ op ∈ ops, op.appliesTo d.type = true) ∧
      ∀ op, set.contains op = true ↔ d.Allows op := by
  -- a set is known by its members
  have hset {p : Operator → Bool} (hp : ∀ op, p op = true ↔ d.Allows op) :
      (OperatorSet.ofPred p = set ↔ ∀ op, set.contains op = true ↔ d.Allows op) := by
    constructor
    · rintro rfl op
      rw [OperatorSet.contains_ofPred, hp]
    · intro h
      refine OperatorSet.ext fun op => ?_
      rw [OperatorSet.contains_ofPred, Bool.eq_iff_iff, hp, h]
  unfold resolvedOperators
  cases hd : d.operators with
  | none =>
    simp only [Except.ok.injEq, reduceCtorEq, false_implies, implies_true, true_and]
    exact hset fun op => by simp [Allows, hd]
  | some ops =>
    simp only [Option.some.injEq, forall_eq']
    cases hfind : ops.find? fun op => !op.appliesTo d.type with
    | some op =>
      refine iff_of_false nofun fun h => ?_
      have hrefused := List.find?_some hfind
      rw [h.1.2 op (List.mem_of_find?_eq_some hfind)] at hrefused
      cases hrefused
    | none =>
      have happlies : ∀ op ∈ ops, op.appliesTo d.type = true := by
        simpa using List.find?_eq_none.mp hfind
      cases ops with
      | nil => simp
      | cons op ops =>
        simp only [List.isEmpty_cons, Bool.false_eq_true, if_false, Except.ok.injEq]
        rw [OperatorSet.ofList, hset fun op => by simp [Allows, hd]]
        exact (and_iff_right ⟨List.cons_ne_nil op ops, happlies⟩).symm

/-- A declaration resolves if it is valid and its name is not in use. -/
theorem resolve_eq_ok : d.resolve record qualifier taken = .ok f ↔
    d.Valid qualifier ∧ d.name ∉ taken ∧ d.Gives qualifier f := by
  unfold FieldDeclaration.resolve
  rw [refuse_eq_ok, refuse_eq_ok, bind_eq_ok]
  simp only [bind_eq_ok, checkSql_eq_ok, resolvedOperators_eq_ok, Bool.not_eq_true',
    Bool.not_eq_false, isFieldName_iff, List.contains_eq_mem, decide_eq_true_eq]
  constructor
  · rintro ⟨hname, htaken, -, hcolumn, set, ⟨hoperators, hallows⟩, h⟩
    cases h
    have hvalid : d.Valid qualifier := ⟨hname, by simpa [standsFor_iff] using hcolumn, hoperators⟩
    exact ⟨hvalid, htaken, rfl, standsFor_iff.mpr rfl, rfl, rfl, hallows⟩
  · rintro ⟨hvalid, htaken, hgives⟩
    refine ⟨hvalid.name, htaken, (), hvalid.column _ (standsFor_iff.mpr rfl), f.operators,
      ⟨hvalid.operators, hgives.allows⟩, ?_⟩
    rw [standsFor_iff.mp hgives.column, ← hgives.name, ← hgives.type, ← hgives.orderable]
    rfl

/-- Every declaration says what its field is. -/
theorem exists_gives (d : FieldDeclaration) (qualifier : Option String) :
    ∃ f, d.Gives qualifier f :=
  ⟨⟨d.name, d.resolvedColumn qualifier, d.type, .ofPred fun op => d.Allows op, d.orderable⟩,
    rfl, standsFor_iff.mpr rfl, rfl, rfl, fun op => by simp⟩

end FieldDeclaration

/-! ## Record types -/

namespace RecordDeclaration

/-- A declaration that can be resolved. -/
structure Valid (d : RecordDeclaration) : Prop where
  name : trim d.name ≠ ""
  select : ∀ sql, d.select = some sql → SafeSql sql.toList
  tables : ∀ sql, d.tables = some sql → SafeSql sql.toList
  /-- The name stands for the table where none is declared. -/
  ownTable : d.tables = none → SafeSql (trim d.name).toList
  fields : ∀ fd ∈ d.fields, fd.Valid d.qualifier
  distinct : d.fields.Pairwise fun fd fd' => fd.name ≠ fd'.name

/-- The record type is what is declared, with the defaults filled in. -/
structure Gives (d : RecordDeclaration) (r : RecordType) : Prop where
  name : r.name = trim d.name
  select : r.select = d.select
  tables : r.tables = d.tables
  /-- In the order of the declaration. -/
  fields : List.Forall₂ (fun fd f => fd.Gives d.qualifier f) d.fields r.fields

variable {d : RecordDeclaration} {r : RecordType}

/-- Fields resolve if each of them does and no two have the same name. -/
theorem resolveFields_eq_ok {record : String} {qualifier : Option String} {taken : List String}
    {ds : List FieldDeclaration} {fs : List Field} :
    resolveFields record qualifier taken ds = .ok fs ↔
      (∀ fd ∈ ds, fd.Valid qualifier) ∧ (∀ fd ∈ ds, fd.name ∉ taken) ∧
        ds.Pairwise (fun fd fd' => fd.name ≠ fd'.name) ∧
        List.Forall₂ (fun fd f => fd.Gives qualifier f) ds fs := by
  induction ds generalizing taken fs with
  | nil => simp [resolveFields, eq_comm]
  | cons fd ds ih =>
    have hfree (fd' : FieldDeclaration) :
        fd'.name ∉ fd.name :: taken ↔ fd'.name ≠ fd.name ∧ fd'.name ∉ taken := by
      rw [List.mem_cons, not_or]
    simp only [resolveFields, bind_eq_ok, FieldDeclaration.resolve_eq_ok, ih, hfree,
      List.forall_mem_cons, List.pairwise_cons, List.forall₂_cons_left_iff]
    constructor
    · rintro ⟨f, ⟨hvalid, htaken, hgives⟩, fs', ⟨hvalids, hothers, hpairwise, hfields⟩, h⟩
      cases h
      exact ⟨⟨hvalid, hvalids⟩, ⟨htaken, fun fd' h => (hothers fd' h).2⟩,
        ⟨fun fd' h => Ne.symm (hothers fd' h).1, hpairwise⟩, f, fs', hgives, hfields, rfl⟩
    · rintro ⟨⟨hvalid, hvalids⟩, ⟨htaken, hothers⟩, ⟨hfirst, hpairwise⟩, f, fs', hgives, hfields,
        rfl⟩
      exact ⟨f, ⟨hvalid, htaken, hgives⟩, fs',
        ⟨hvalids, fun fd' h => ⟨Ne.symm (hfirst fd' h), hothers fd' h⟩, hpairwise, hfields⟩, rfl⟩

/-- A declaration resolves if it is valid, and to what it gives. -/
theorem resolve_eq_ok : d.resolve = .ok r ↔ d.Valid ∧ d.Gives r := by
  unfold RecordDeclaration.resolve
  rw [refuse_eq_ok, bind_eq_ok]
  simp only [bind_eq_ok, when_eq_ok, checkSql_eq_ok, checkSql?_eq_ok, resolveFields_eq_ok,
    Option.isNone_iff_eq_none, List.not_mem_nil, not_false_eq_true, implies_true, true_and]
  constructor
  · rintro ⟨hname, -, hselect, -, htables, hown, fs, ⟨hvalid, hdistinct, hfields⟩, h⟩
    cases h
    exact ⟨⟨by simpa using hname, hselect, htables, hown, hvalid, hdistinct⟩,
      ⟨rfl, rfl, rfl, hfields⟩⟩
  · rintro ⟨hvalid, hgives⟩
    refine ⟨by simpa using hvalid.name, (), hvalid.select, (), hvalid.tables, hvalid.ownTable,
      r.fields, ⟨hvalid.fields, hvalid.distinct, hgives.fields⟩, ?_⟩
    rw [← hgives.name, ← hgives.select, ← hgives.tables]
    rfl

/-- Every declaration says what its record type is. -/
theorem exists_gives (d : RecordDeclaration) : ∃ r, d.Gives r := by
  choose field hfield using fun fd : FieldDeclaration => fd.exists_gives d.qualifier
  refine ⟨⟨trim d.name, d.select, d.tables, d.fields.map field⟩, rfl, rfl, rfl, ?_⟩
  rw [List.forall₂_map_right_iff]
  exact List.forall₂_same.mpr fun fd _ => hfield fd

end RecordDeclaration

end RecordQuery
