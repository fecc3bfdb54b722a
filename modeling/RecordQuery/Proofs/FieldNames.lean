import RecordQuery.Proofs.ReadTokens
import RecordQuery.Proofs.StrictOrder
import RecordQuery.Proofs.WrittenValues

/-!
# Names of fields

What a declaration may call a field, and what a filter reads as one name, is decided in two
places that know nothing of each other. They agree on every text: a declared field is never out
of a client's reach, and no text that a client could name a field by is kept from declarations.
-/

namespace RecordQuery

open Outcome Text

/-! ## Two ways to tell a name -/

/-- The text is one token, which is a name, and not a truth value. -/
structure ReadsAsName (s : String) : Prop where
  token : ∃ t, tokenize s = .ok [t] ∧ t.kind = .name ∧ t.lexeme = s.toList ∧ t.position = 0
  notTrue : sameWord s.toList "true".toList = false
  notFalse : sameWord s.toList "false".toList = false

/-- **Declarations and filters agree on names.** -/
theorem isFieldName_iff_readsAsName {s : String} :
    isFieldName s.toList = true ↔ ReadsAsName s := by
  constructor
  · intro h
    have htokens : Lexed.Consists 0 s.toList _ := Lexed.consists_name h
    have hfree := (isFieldName_iff.mp h).free
    refine ⟨⟨⟨.name, s.toList, false, 0⟩, ?_, rfl, rfl, rfl⟩, ?_, ?_⟩
    · rw [tokenize, Lexed.ofText, htokens]
      rfl
    · exact hfree "true" (by decide)
    · exact hfree "false" (by decide)
  · rintro ⟨⟨t, htokens, hkind, hlexeme, -⟩, htrue, hfalse⟩
    have ht : t ∈ (Lexed.ofText s).tokens := by
      rw [Lexed.of_tokenize htokens]
      exact List.mem_singleton.mpr rfl
    obtain ⟨c, cs, hstart, hparts, hand, hor, hform⟩ :=
      (Lexed.wellFormed_form ht).exists_name hkind
    obtain ⟨-, hword, -⟩ := TokenForm.mk.inj hform
    have hs : s.toList = c :: cs := hlexeme.symm.trans hword
    rw [hs] at htrue hfalse ⊢
    refine isFieldName_iff.mpr ⟨⟨c, rfl, hstart⟩, ?_, by simpa using ⟨hand, hor, htrue, hfalse⟩⟩
    exact List.forall_mem_cons.mpr ⟨isNamePart_of_isNameStart hstart, hparts⟩

/-! ## What becomes of a name in a declaration -/

namespace Identifier

variable {cs : List Char}

theorem not_mem (h : Identifier cs) {c : Char} (hc : isNamePart c = false) : c ∉ cs := by
  intro hmem
  rw [h.parts c hmem] at hc
  cases hc

theorem isBlank_eq_false (h : Identifier cs) {c : Char} (hc : c ∈ cs) : isBlank c = false := by
  refine Bool.eq_false_iff.mpr fun hblank => ?_
  exact h.not_mem (inside_isNamePart c (mem_separators_of_isBlank hblank)) hc

theorem ne_nil (h : Identifier cs) : cs ≠ [] := by
  obtain ⟨c, hhead, -⟩ := h.start
  rintro rfl
  cases hhead

/-- A name can stand for a column. -/
theorem safeSql (h : Identifier cs) : SafeSql cs := by
  have hdash : '-' ∉ cs := h.not_mem rfl
  have hslash : '/' ∉ cs := h.not_mem rfl
  have hline : ¬ ['-', '-'] <:+: cs := fun hpair => hdash (hpair.subset (by simp))
  have hblock : ¬ ['/', '*'] <:+: cs := fun hpair => hslash (hpair.subset (by simp))
  obtain ⟨c, hc⟩ := List.exists_mem_of_ne_nil cs h.ne_nil
  exact ⟨⟨c, hc, h.isBlank_eq_false hc⟩, h.not_mem rfl, h.not_mem rfl, h.not_mem rfl, hline, hblock⟩

end Identifier

theorem eq_of_checkSql_eq_error {record : String} {place : SqlPlace} {sql : String}
    {e : SchemaError} (h : checkSql record place sql = .error e) :
    e = .unsafeSql record place sql := by
  unfold checkSql at h
  split at h <;> cases h
  rfl

theorem exists_of_checkSql?_eq_error {record : String} {place : SqlPlace} {sql : Option String}
    {e : SchemaError} (h : checkSql? record place sql = .error e) :
    ∃ text, e = .unsafeSql record place text := by
  cases sql with
  | none => cases h
  | some text => exact ⟨text, eq_of_checkSql_eq_error h⟩

namespace FieldDeclaration

variable {d : FieldDeclaration} {record : String}

theorem resolvedOperators_ne_invalidFieldName {record' name : String} :
    d.resolvedOperators record ≠ .error (.invalidFieldName record' name) := by
  unfold resolvedOperators
  split
  · exact nofun
  · split
    · exact nofun
    · split <;> exact nofun

/-- **A field is refused for its name** if and only if the name is none, whatever else is declared
for it and whichever names are in use. -/
theorem resolve_eq_invalidFieldName {qualifier : Option String} {taken : List String}
    {record' name : String} :
    d.resolve record qualifier taken = .error (.invalidFieldName record' name) ↔
      isFieldName name.toList = false ∧ record = record' ∧ d.name = name := by
  unfold FieldDeclaration.resolve
  rw [refuse_eq_error, refuse_eq_error, SchemaError.invalidFieldName.injEq]
  simp only [bind_eq_error]
  constructor
  · rintro (⟨hname, rfl, rfl⟩ | ⟨-, ⟨-, h⟩ | ⟨-, h | ⟨_, -, h | ⟨_, -, h⟩⟩⟩⟩)
    · exact ⟨by simpa using hname, rfl, rfl⟩
    · cases h
    · cases eq_of_checkSql_eq_error h
    · exact absurd h resolvedOperators_ne_invalidFieldName
    · cases h
  · rintro ⟨hname, rfl, rfl⟩
    exact .inl ⟨by simp [hname], rfl, rfl⟩

end FieldDeclaration

namespace RecordDeclaration

theorem exists_of_resolveFields_eq_error {record : String} {qualifier : Option String}
    {taken : List String} {ds : List FieldDeclaration} {e : SchemaError}
    (h : resolveFields record qualifier taken ds = .error e) :
    ∃ d ∈ ds, ∃ taken, d.resolve record qualifier taken = .error e := by
  induction ds generalizing taken with
  | nil => cases h
  | cons d ds ih =>
    simp only [resolveFields, bind_eq_error] at h
    rcases h with h | ⟨f, -, h | ⟨fs, -, h⟩⟩
    · exact ⟨d, List.mem_cons_self, taken, h⟩
    · obtain ⟨d', hd', hresolve⟩ := ih h
      exact ⟨d', List.mem_cons_of_mem d hd', hresolve⟩
    · cases h

/-- A record type is refused for the name of one of its fields. -/
theorem exists_of_resolve_eq_invalidFieldName {d : RecordDeclaration} {record name : String}
    (h : d.resolve = .error (.invalidFieldName record name)) :
    isFieldName name.toList = false ∧ record = trim d.name ∧ ∃ fd ∈ d.fields, fd.name = name := by
  unfold RecordDeclaration.resolve at h
  rw [refuse_eq_error] at h
  simp only [bind_eq_error, when_eq_error] at h
  rcases h with ⟨-, h⟩ | ⟨-, h | ⟨_, -, h | ⟨_, -, ⟨-, h⟩ | ⟨-, h | ⟨_, -, h⟩⟩⟩⟩⟩
  · cases h
  · obtain ⟨text, herror⟩ := exists_of_checkSql?_eq_error h
    cases herror
  · obtain ⟨text, herror⟩ := exists_of_checkSql?_eq_error h
    cases herror
  · cases eq_of_checkSql_eq_error h
  · obtain ⟨fd, hfd, taken, hresolve⟩ := exists_of_resolveFields_eq_error h
    obtain ⟨hname, hrecord, hfield⟩ := FieldDeclaration.resolve_eq_invalidFieldName.mp hresolve
    exact ⟨hname, hrecord.symm, fd, hfd, hfield⟩
  · cases h

/-- A declaration of one field, with no more than its name. -/
def ofName (name : String) : RecordDeclaration :=
  { name := "record", fields := [{ name := name, type := .string }] }

theorem exists_resolve_ofName {name : String} (h : Identifier name.toList) :
    ∃ r, (ofName name).resolve = .ok r := by
  refine ((ofName name).resolve_iff_valid).1.mpr ⟨?_, nofun, nofun, ?_, ?_, ?_⟩
  · show trim "record" ≠ ""
    decide +kernel
  · have hsafe : isSafeSql (trim "record").toList = true := by decide +kernel
    exact fun _ => isSafeSql_iff.mp hsafe
  · intro fd hfd
    obtain rfl := List.mem_singleton.mp hfd
    refine ⟨h, fun sql hsql => ?_, nofun⟩
    cases hsql with
    | name => exact h.safeSql
    | column declared => cases declared
  · exact List.pairwise_singleton ..

end RecordDeclaration

/-! ## What a client says with a name -/

/-- The name is that of the field for filters and for order texts, wherever blanks may stand. -/
structure RecordType.Reaches (r : RecordType) (name : String) (f : Field) : Prop where
  lookup : r.field? name = some f
  filter : ∀ limits : Limits, 0 < limits.predicates →
    parse limits (name ++ " $null") = .ok (.leaf ⟨name, 0, .null⟩)
  segment : ∀ before after, Blanks before → Blanks after →
    Order.Segment.ofChars? (before ++ name.toList ++ after) = some ⟨name, none⟩
  order : ∀ (limits : Limits) (strict : Bool) (before after : List Char), Blanks before →
    Blanks after → 0 < limits.orderFields →
    Order.compile r limits strict (String.ofList (before ++ name.toList ++ after)) =
      if f.orderable then .ok [⟨f.column, .ascending⟩]
      else if strict then .error (.fieldNotOrderable name) else .ok []

namespace Identifier

variable {name : String}

theorem parse_null (h : Identifier name.toList) {limits : Limits} (hroom : 0 < limits.predicates) :
    parse limits (name ++ " $null") = .ok (.leaf ⟨name, 0, .null⟩) := by
  have htext : (name ++ " $null").toList =
      name.toList ++ ' ' :: Operator.null.symbol.toList := String.toList_append
  have htokens := (Lexed.consists_name (isFieldName_iff.mpr h)).spaced (Lexed.consists_symbol .null)
  rw [← htext] at htokens
  have hparse := Parser.parse_of_leaf htokens (.null rfl rfl) hroom (Nat.zero_le _)
  rwa [String.ofList_toList] at hparse

theorem spelled {before after : List Char} (h : Identifier name.toList) (hbefore : Blanks before)
    (hafter : Blanks after) :
    Order.Segment.Spelled (before ++ name.toList ++ after) ⟨name, none⟩ := by
  have hspelled :=
    Order.Segment.Spelled.alone hbefore h.ne_nil (fun c => h.isBlank_eq_false) hafter
  rwa [String.ofList_toList] at hspelled

end Identifier

/-- Every field of a record type can be named. -/
theorem RecordType.reaches_of_mem {d : RecordDeclaration} {r : RecordType} {f : Field}
    (hr : d.resolve = .ok r) (hf : f ∈ r.fields) (h : Identifier f.name.toList) :
    r.Reaches f.name f := by
  have hlookup : r.field? f.name = some f := field?_of_mem hr hf
  refine ⟨hlookup, fun limits => h.parse_null, fun before after hbefore hafter =>
    Order.Segment.ofChars?_of_spelled (h.spelled hbefore hafter), ?_⟩
  intro limits strict before after hbefore hafter hroom
  have hcomma : ',' ∉ before ++ f.name.toList ++ after := by
    have hblanks {cs : List Char} (hcs : Blanks cs) : ',' ∉ cs := fun hmem => by
      cases hcs ',' hmem
    have hname : ',' ∉ f.name.toList := h.not_mem rfl
    simp [hblanks hbefore, hblanks hafter, hname]
  have hsplit : (String.ofList (before ++ f.name.toList ++ after)).toList.splitOn ',' =
      [before ++ f.name.toList ++ after] := by
    rw [String.toList_ofList, List.splitOn_eq_singleton hcomma]
  have hspelled := h.spelled hbefore hafter
  rw [Order.compile_of_le (by rwa [hsplit]), hsplit,
    Order.keys_cons_of_means hspelled (.omitted rfl)]
  cases horderable : f.orderable with
  | true =>
    have hfield : Order.Segment.field? ⟨f.name, none⟩ r = some f := by
      simp [Order.Segment.field?, hlookup, horderable]
    simp [hfield, Order.keys, Except.map]
  | false =>
    obtain ⟨hfield, herror⟩ :=
      Order.Segment.field?_of_unordered hr (s := ⟨f.name, none⟩) hf rfl horderable
    simp [hfield, herror, Order.keys]

/-- **What can be declared is what can be named.** A text is the name of a field in some
declaration that resolves if and only if a filter reads it as one name; declarations are refused
for names that no filter reads so, and wherever a field has such a name. So the fields of every
record type are in reach of filters and of order texts, by the names that they are declared
with. -/
theorem fieldNames_agree :
    (∀ s : String,
      ((∃ d r, RecordDeclaration.resolve d = .ok r ∧ ∃ fd ∈ d.fields, fd.name = s) ↔
        ReadsAsName s) ∧
      (∀ d record, RecordDeclaration.resolve d = .error (.invalidFieldName record s) →
        ¬ ReadsAsName s) ∧
      ∀ (fd : FieldDeclaration) record qualifier taken, fd.name = s →
        (fd.resolve record qualifier taken = .error (.invalidFieldName record s) ↔
          ¬ ReadsAsName s)) ∧
    ∀ d r, RecordDeclaration.resolve d = .ok r →
      ∀ fd ∈ d.fields, ∃ f, fd.Gives d.qualifier f ∧ r.Reaches fd.name f := by
  refine ⟨fun s => ⟨?_, ?_, ?_⟩, fun d r hr fd hfd => ?_⟩
  · rw [← isFieldName_iff_readsAsName, isFieldName_iff]
    constructor
    · rintro ⟨d, r, hr, fd, hfd, rfl⟩
      exact ((RecordDeclaration.resolve_eq_ok.mp hr).1.fields fd hfd).name
    · intro h
      obtain ⟨r, hr⟩ := RecordDeclaration.exists_resolve_ofName h
      exact ⟨_, r, hr, _, List.mem_singleton.mpr rfl, rfl⟩
  · rw [← isFieldName_iff_readsAsName, Bool.not_eq_true]
    exact fun d record hd => (RecordDeclaration.exists_of_resolve_eq_invalidFieldName hd).1
  · rintro fd record qualifier taken rfl
    rw [FieldDeclaration.resolve_eq_invalidFieldName, ← isFieldName_iff_readsAsName]
    simp
  · obtain ⟨hvalid, hgives⟩ := RecordDeclaration.resolve_eq_ok.mp hr
    obtain ⟨f, hf, hfield⟩ := exists_of_mem_left hgives.fields hfd
    have hname : Identifier fd.name.toList := (hvalid.fields fd hfd).name
    rw [← hfield.name] at hname ⊢
    exact ⟨f, hfield, RecordType.reaches_of_mem hr hf hname⟩

/-- A name that begins with a reserved word and ends with one, and a truth value, which filters
read as one token but not as a name. -/
theorem fieldNames_agree_reserved :
    let fd : FieldDeclaration := { name := "true._2.or", type := .integer, orderable := true }
    let d : RecordDeclaration := { name := " log ", qualifier := some "l ", fields := [fd] }
    let f : Field := ⟨"true._2.or", "l.true._2.or", .integer, .allFor .integer, true⟩
    let r : RecordType := ⟨"log", none, none, [f]⟩
    d.resolve = .ok r ∧ ReadsAsName "true._2.or" ∧
      (∃ f, fd.Gives (some "l ") f ∧ r.Reaches "true._2.or" f) ∧
      tokenize "False" = .ok [⟨.name, "False".toList, false, 0⟩] ∧
      FieldDeclaration.resolve ⟨"False", none, .boolean, none, false⟩ "log" none ["true._2.or"] =
        .error (.invalidFieldName "log" "False") := by
  intro fd d f r
  have hr : d.resolve = .ok r := by decide +kernel
  have hfalse : ¬ ReadsAsName "False" := fun h => by
    have hnot := h.notFalse
    revert hnot
    decide
  obtain ⟨hnames, hfields⟩ := fieldNames_agree
  have hread : ReadsAsName "true._2.or" :=
    (hnames "true._2.or").1.mp ⟨d, r, hr, fd, List.mem_singleton.mpr rfl, rfl⟩
  exact ⟨hr, hread, hfields d r hr fd (List.mem_singleton.mpr rfl), by decide +kernel,
    ((hnames "False").2.2 _ _ _ _ rfl).mpr hfalse⟩

end RecordQuery
