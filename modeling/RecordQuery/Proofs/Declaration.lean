import RecordQuery.Proofs.ValidDeclarations

/-!
# Declared fields

What holds of every field of a record type that a declaration resolves to: its
name can be written in a filter, its column is safe to put into a statement,
and its operators apply to its type. Nothing later checks these again. Main
statement: what is valid resolves, and resolving keeps all that is declared.
-/

namespace RecordQuery

open Text Outcome

/-- A name begins with a letter or an underscore, reads as one word, and is not reserved. -/
theorem exists_cons_of_isFieldName {name : List Char} (h : isFieldName name = true) :
    ∃ c cs, name = c :: cs ∧ isNameStart c = true ∧ cs.all isNamePart = true ∧
      isReservedWord name = false := by
  cases name with
  | nil => cases h
  | cons c cs =>
    simp only [isFieldName, Bool.and_eq_true, Bool.not_eq_true'] at h
    exact ⟨c, cs, rfl, h.1.1, h.1.2, h.2⟩

/-- Safe SQL has no placeholder in it, opens no string, and ends no statement. -/
theorem not_mem_of_isSafeSql {cs : List Char} (h : isSafeSql cs = true) :
    '?' ∉ cs ∧ '\'' ∉ cs ∧ ';' ∉ cs := by
  have hsafe := isSafeSql_iff.mp h
  exact ⟨hsafe.noPlaceholder, hsafe.noQuote, hsafe.noEnd⟩

/-- The field is the one that `d` declares, with its defaults filled in. -/
structure FieldDeclaration.Declares (d : FieldDeclaration) (qualifier : Option String)
    (f : Field) : Prop where
  name : f.name = d.name
  column : f.column = d.resolvedColumn qualifier
  type : f.type = d.type
  orderable : f.orderable = d.orderable
  named : isFieldName f.name.toList = true
  safe : isSafeSql f.column.toList = true
  applies : ∀ op, f.operators.contains op = true → op.appliesTo f.type = true

namespace FieldDeclaration.Declares

variable {d : FieldDeclaration} {qualifier : Option String} {f : Field}

theorem not_reserved (h : d.Declares qualifier f) : isReservedWord f.name.toList = false := by
  obtain ⟨c, cs, -, -, -, hreserved⟩ := exists_cons_of_isFieldName h.named
  exact hreserved

theorem no_placeholder (h : d.Declares qualifier f) : '?' ∉ f.column.toList :=
  (not_mem_of_isSafeSql h.safe).1

end FieldDeclaration.Declares

namespace FieldDeclaration

variable {d : FieldDeclaration} {qualifier : Option String} {f : Field}

/-- An operator that is allowed applies to the type, whether it is listed or not. -/
theorem Valid.applies (h : d.Valid qualifier) {op : Operator} (hop : d.Allows op) :
    op.appliesTo d.type = true := by
  unfold Allows at hop
  split at hop
  · rename_i ops hops
    exact (h.operators ops hops).2 op hop
  · exact hop

theorem Valid.declares (h : d.Valid qualifier) (hf : d.Gives qualifier f) :
    d.Declares qualifier f where
  name := hf.name
  column := (standsFor_iff.mp hf.column).symm
  type := hf.type
  orderable := hf.orderable
  named := by
    rw [hf.name]
    exact isFieldName_iff.mpr h.name
  safe := isSafeSql_iff.mpr (h.column f.column hf.column)
  applies := by
    intro op hop
    rw [hf.type]
    exact h.applies ((hf.allows op).mp hop)

end FieldDeclaration

namespace RecordDeclaration

variable {d : RecordDeclaration} {r : RecordType}

/-- The fields of a record type are those that are declared, in their order. -/
theorem declares_of_resolve (h : d.resolve = .ok r) :
    List.Forall₂ (fun fd f => fd.Declares d.qualifier f) d.fields r.fields := by
  obtain ⟨hvalid, hgives⟩ := resolve_eq_ok.mp h
  have hfields : List.Forall₂ (fun fd f => fd.Valid d.qualifier ∧ fd.Gives d.qualifier f)
      d.fields r.fields :=
    (List.forall₂_and_left _ _).mpr ⟨hvalid.fields, hgives.fields⟩
  exact hfields.imp fun _ _ hf => hf.1.declares hf.2

/-- The fields of a record type have different names. -/
theorem pairwise_name_of_resolve (h : d.resolve = .ok r) :
    r.fields.Pairwise fun f g => f.name ≠ g.name := by
  obtain ⟨hvalid, hgives⟩ := resolve_eq_ok.mp h
  have hnames : List.Forall₂ (fun fd f => fd.name = f.name) d.fields r.fields :=
    hgives.fields.imp fun _ _ hf => hf.name.symm
  exact pairwise_of_forall₂ (S := (· ≠ ·)) hnames hvalid.distinct

/-- What a record type selects, and what it reads from, is safe to put into a statement. -/
theorem safe_of_resolve (h : d.resolve = .ok r) :
    isSafeSql r.selectList.toList = true ∧ isSafeSql r.source.toList = true := by
  obtain ⟨hvalid, hgives⟩ := resolve_eq_ok.mp h
  rw [RecordType.selectList, RecordType.source, hgives.select, hgives.tables, hgives.name]
  constructor
  · cases hs : d.select with
    | none =>
      have hstar : isSafeSql "*".toList = true := by decide
      exact hstar
    | some select => exact isSafeSql_iff.mpr (hvalid.select select hs)
  · -- the name is checked where it stands for the table
    cases ht : d.tables with
    | none => exact isSafeSql_iff.mpr (hvalid.ownTable ht)
    | some tables => exact isSafeSql_iff.mpr (hvalid.tables tables ht)

end RecordDeclaration

/-- A field that a filter can name has been declared. -/
theorem RecordType.exists_declares {d : RecordDeclaration} {r : RecordType} {name : String}
    {f : Field} (h : d.resolve = .ok r) (hf : r.field? name = some f) :
    f.name = name ∧ ∃ fd ∈ d.fields, fd.Declares d.qualifier f := by
  refine ⟨by simpa using List.find?_some hf, ?_⟩
  exact exists_of_mem_right (RecordDeclaration.declares_of_resolve h) (List.mem_of_find?_eq_some hf)

/-- Where keys are different, what has a key is found by it. -/
theorem find?_key_eq_some_iff {α β : Type} [BEq β] [LawfulBEq β] {key : α → β} {as : List α}
    (h : as.Pairwise fun a b => key a ≠ key b) {k : β} {a : α} :
    as.find? (fun a => key a == k) = some a ↔ a ∈ as ∧ key a = k := by
  constructor
  · intro hfind
    exact ⟨List.mem_of_find?_eq_some hfind, by simpa using List.find?_some hfind⟩
  · rintro ⟨hmem, rfl⟩
    induction as with
    | nil => cases hmem
    | cons b bs ih =>
      obtain ⟨hb, hbs⟩ := List.pairwise_cons.mp h
      rcases List.mem_cons.mp hmem with rfl | hmem
      · exact List.find?_cons_of_pos (beq_self_eq_true (key a))
      · rw [List.find?_cons_of_neg (by simpa using hb a hmem), ih hbs hmem]

theorem RecordType.field?_eq_some_iff {d : RecordDeclaration} {r : RecordType}
    (h : d.resolve = .ok r) {name : String} {f : Field} :
    r.field? name = some f ↔ f ∈ r.fields ∧ f.name = name :=
  find?_key_eq_some_iff (RecordDeclaration.pairwise_name_of_resolve h)

/-- Every field of a record type is found by its name. -/
theorem RecordType.field?_of_mem {d : RecordDeclaration} {r : RecordType} {f : Field}
    (h : d.resolve = .ok r) (hf : f ∈ r.fields) : r.field? f.name = some f :=
  (field?_eq_some_iff h).mpr ⟨hf, rfl⟩

/-- A name belongs to one field. -/
theorem RecordType.eq_of_name_eq {d : RecordDeclaration} {r : RecordType} (h : d.resolve = .ok r)
    {f g : Field} (hf : f ∈ r.fields) (hg : g ∈ r.fields) (hname : f.name = g.name) : f = g := by
  have hlookup := (field?_eq_some_iff h).mpr ⟨hf, hname⟩
  exact Option.some.inj (hlookup.symm.trans (field?_of_mem h hg))

theorem RecordType.field?_eq_none_iff {r : RecordType} {name : String} :
    r.field? name = none ↔ ∀ f ∈ r.fields, f.name ≠ name := by
  simp [field?, List.find?_eq_none]

/-- A filter that names a field does so by a word that is not reserved. -/
theorem RecordType.not_reserved {d : RecordDeclaration} {r : RecordType} {name : String}
    {f : Field} (h : d.resolve = .ok r) (hf : r.field? name = some f) :
    isReservedWord name.toList = false := by
  obtain ⟨hname, fd, -, hdeclares⟩ := exists_declares h hf
  rw [← hname]
  exact hdeclares.not_reserved

/-- The column of a field that a filter can name is safe to put into a statement. -/
theorem RecordType.safe_column {d : RecordDeclaration} {r : RecordType} {name : String}
    {f : Field} (h : d.resolve = .ok r) (hf : r.field? name = some f) :
    isSafeSql f.column.toList = true := by
  obtain ⟨-, fd, -, hdeclares⟩ := exists_declares h hf
  exact hdeclares.safe

/-- Nothing in a column passes for a placeholder. -/
theorem RecordType.no_placeholder {d : RecordDeclaration} {r : RecordType} {name : String}
    {f : Field} (h : d.resolve = .ok r) (hf : r.field? name = some f) : '?' ∉ f.column.toList := by
  obtain ⟨-, fd, -, hdeclares⟩ := exists_declares h hf
  exact hdeclares.no_placeholder

/-! ## What resolves -/

namespace RecordDeclaration

/-- **A declaration resolves if and only if it is valid**, and then to what it declares: each
field with its defaults filled in, in the order of the declaration, and found by its name. -/
theorem resolve_iff_valid (d : RecordDeclaration) :
    ((∃ r, d.resolve = .ok r) ↔ d.Valid) ∧
      ∀ r, d.resolve = .ok r → d.Gives r ∧
        ∀ name f, r.field? name = some f ↔ f ∈ r.fields ∧ f.name = name := by
  refine ⟨⟨?_, fun hvalid => ?_⟩, fun r h => ?_⟩
  · rintro ⟨r, h⟩
    exact (resolve_eq_ok.mp h).1
  · obtain ⟨r, hgives⟩ := d.exists_gives
    exact ⟨r, resolve_eq_ok.mpr ⟨hvalid, hgives⟩⟩
  · exact ⟨(resolve_eq_ok.mp h).2, fun _ _ => RecordType.field?_eq_some_iff h⟩

/-- Names and columns with blanks around them, and operators that are listed twice. -/
theorem resolve_iff_valid_defaults :
    let d : RecordDeclaration :=
      { name := " user ", qualifier := some " u ",
        fields := [{ name := "name", type := .string },
          { name := "age", column := some " years ", type := .integer,
            operators := some [.isIn, .null, .isIn], orderable := true }] }
    let age : Field := ⟨"age", "years", .integer, .ofList [.null, .isIn], true⟩
    let r : RecordType :=
      ⟨"user", none, none, [⟨"name", "u.name", .string, .allFor .string, false⟩, age]⟩
    d.Valid ∧ d.resolve = .ok r ∧ d.Gives r ∧ r.field? "age" = some age := by
  intro d age r
  have hr : d.resolve = .ok r := by decide +kernel
  obtain ⟨hvalid, hresult⟩ := resolve_iff_valid d
  obtain ⟨hgives, hlookup⟩ := hresult r hr
  have hage : age ∈ r.fields := List.mem_cons_of_mem _ List.mem_cons_self
  exact ⟨hvalid.mp ⟨r, hr⟩, hr, hgives, (hlookup "age" age).mpr ⟨hage, rfl⟩⟩

end RecordDeclaration

end RecordQuery
