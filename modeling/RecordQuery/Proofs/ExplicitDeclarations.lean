import RecordQuery.Proofs.FieldNames

/-!
# Explicit declarations

A record type can be declared with nothing left out: with its columns, its operators and the
query it is read with, as they were resolved. Such a declaration resolves to the record type that
it was made of. So every default is a value that could have been declared, and what resolving
trims and checks is left as it is when it is trimmed and checked again.
-/

namespace RecordQuery

open Outcome Text

/-! ## Trimming -/

namespace Text

theorem trimmed_eq_self {cs : List Char} (h : Tight cs) : trimmed cs = cs := by
  have hnil : Blanks [] := List.forall_mem_nil _
  simpa using trimmed_of_tight hnil h hnil

theorem trimmed_eq_nil_or_tight (cs : List Char) : trimmed cs = [] ∨ Tight (trimmed cs) := by
  by_cases hblanks : Blanks cs
  · exact .inl (trimmed_of_blanks hblanks)
  · obtain ⟨before, core, after, rfl, hbefore, hcore, hafter⟩ := exists_tight hblanks
    rw [trimmed_of_tight hbefore hcore hafter]
    exact .inr hcore

theorem trim_of_tight {s : String} (h : Tight s.toList) : trim s = s := by
  rw [trim, trimmed_eq_self h, String.ofList_toList]

/-- What is trimmed has nothing more to trim. -/
theorem trim_trim (s : String) : trim (trim s) = trim s := by
  rw [trim, trim, String.toList_ofList]
  rcases trimmed_eq_nil_or_tight s.toList with hnil | htight
  · rw [hnil]
    rfl
  · rw [trimmed_eq_self htight]

end Text

theorem Identifier.tight {cs : List Char} (h : Identifier cs) : Tight cs :=
  tight_of_solid h.ne_nil fun _ => h.isBlank_eq_false

/-! ## Fields -/

/-- The declaration of a field that leaves nothing out. -/
def Field.explicit (f : Field) : FieldDeclaration where
  name := f.name
  column := some f.column
  type := f.type
  operators := some f.operators.members
  orderable := f.orderable

theorem OperatorSet.contains_iff {s : OperatorSet} {op : Operator} :
    s.contains op = true ↔ op ∈ s.members := by
  rw [contains, List.contains_eq_mem, decide_eq_true_eq]

namespace FieldDeclaration

variable {d : FieldDeclaration} {qualifier : Option String} {f : Field}

/-- There is nothing to trim of a column, be it declared or made of the name of the field. -/
theorem trim_resolvedColumn (h : Identifier d.name.toList) (qualifier : Option String) :
    trim (d.resolvedColumn qualifier) = d.resolvedColumn qualifier := by
  unfold resolvedColumn
  split
  · exact trim_trim _
  · rename_i qualifier _
    refine trim_of_tight ?_
    rw [String.toList_append, String.toList_append, trim, String.toList_ofList]
    rcases trimmed_eq_nil_or_tight qualifier.toList with hnil | htight
    · -- a blank qualifier leaves the point
      have hpoint : Tight ['.'] :=
        tight_of_solid (List.cons_ne_nil _ _) (List.forall_mem_singleton.mpr rfl)
      have hjoined : Tight (['.'] ++ [] ++ d.name.toList) := hpoint.join h.tight
      simpa [hnil] using hjoined
    · exact htight.join h.tight
  · exact trim_of_tight h.tight

theorem Valid.trim_column (h : d.Valid qualifier) (hf : d.Gives qualifier f) :
    trim f.column = f.column := by
  rw [← standsFor_iff.mp hf.column]
  exact trim_resolvedColumn h.name qualifier

/-- A valid field allows some operator. -/
theorem Valid.exists_allows (h : d.Valid qualifier) : ∃ op, d.Allows op := by
  unfold Allows
  split
  · rename_i ops hops
    exact List.exists_mem_of_ne_nil ops (h.operators ops hops).1
  · exact ⟨.null, rfl⟩

theorem Valid.explicit (h : d.Valid qualifier) (hf : d.Gives qualifier f) :
    f.explicit.Valid none where
  name := by
    rw [Field.explicit, hf.name]
    exact h.name
  column := by
    intro sql hsql
    cases hsql with
    | column declared =>
      cases declared
      rw [h.trim_column hf]
      exact h.column f.column hf.column
    | name undeclared => cases undeclared
  operators := by
    intro ops hops
    cases hops
    obtain ⟨op, hop⟩ := h.exists_allows
    refine ⟨List.ne_nil_of_mem (OperatorSet.contains_iff.mp ((hf.allows op).mpr hop)), ?_⟩
    intro op hop
    rw [Field.explicit, hf.type]
    exact h.applies ((hf.allows op).mp (OperatorSet.contains_iff.mpr hop))

theorem Valid.gives_explicit (h : d.Valid qualifier) (hf : d.Gives qualifier f) :
    f.explicit.Gives none f where
  name := rfl
  column := standsFor_iff.mpr (h.trim_column hf)
  type := rfl
  orderable := rfl
  allows := fun _ => OperatorSet.contains_iff

end FieldDeclaration

/-! ## Record types -/

/-- The declaration of a record type that leaves nothing out. -/
def RecordType.explicit (r : RecordType) : RecordDeclaration where
  name := r.name
  select := some r.selectList
  tables := some r.source
  qualifier := none
  fields := r.fields.map Field.explicit

namespace RecordDeclaration

variable {d : RecordDeclaration} {r : RecordType}

/-- What is declared in full is valid. -/
theorem explicit_valid (h : d.resolve = .ok r) : r.explicit.Valid := by
  obtain ⟨hvalid, hgives⟩ := resolve_eq_ok.mp h
  obtain ⟨hselect, hsource⟩ := safe_of_resolve h
  exact {
    name := by
      rw [RecordType.explicit, hgives.name, trim_trim]
      exact hvalid.name
    select := by
      rintro sql ⟨⟩
      exact isSafeSql_iff.mp hselect
    tables := by
      rintro sql ⟨⟩
      exact isSafeSql_iff.mp hsource
    ownTable := nofun
    fields := by
      intro fd hfd
      obtain ⟨f, hf, rfl⟩ := List.mem_map.mp hfd
      obtain ⟨fd, hfd, hfield⟩ := exists_of_mem_right hgives.fields hf
      exact (hvalid.fields fd hfd).explicit hfield
    distinct := List.pairwise_map.mpr (pairwise_name_of_resolve h) }

/-- **Resolving defaults once is enough**: what a declaration resolves to can be declared with
nothing left out, and that resolves to the same name, query and fields. -/
theorem resolve_explicit (h : d.resolve = .ok r) : ∃ r', r.explicit.resolve = .ok r' ∧
    r'.name = r.name ∧ r'.selectList = r.selectList ∧ r'.source = r.source ∧
      r'.fields = r.fields := by
  obtain ⟨hvalid, hgives⟩ := resolve_eq_ok.mp h
  have hname : r.name = trim r.name := by rw [hgives.name, trim_trim]
  have hfields : List.Forall₂ (fun fd f => fd.Gives none f) (r.fields.map Field.explicit)
      r.fields := by
    refine List.forall₂_map_left_iff.mpr (List.forall₂_same.mpr fun f hf => ?_)
    obtain ⟨fd, hfd, hfield⟩ := exists_of_mem_right hgives.fields hf
    exact (hvalid.fields fd hfd).gives_explicit hfield
  have hexplicit : r.explicit.Gives ⟨r.name, some r.selectList, some r.source, r.fields⟩ :=
    ⟨hname, rfl, rfl, hfields⟩
  exact ⟨_, resolve_eq_ok.mpr ⟨explicit_valid h, hexplicit⟩, rfl, rfl, rfl, rfl⟩

/-- Blanks around the name and in place of the qualifier, a column and operators that are declared
in part, and nothing said about the query. -/
theorem resolve_explicit_blanks :
    let d : RecordDeclaration :=
      { name := "\tuser ", qualifier := some " \u00a0",
        fields := [{ name := "id", type := .integer, orderable := true },
          { name := "name", column := some " lower(name) ", type := .string,
            operators := some [.pattern .start, .compare .equal, .pattern .start] }] }
    let id : Field := ⟨"id", ".id", .integer, .allFor .integer, true⟩
    let name : Field :=
      ⟨"name", "lower(name)", .string, .ofList [.compare .equal, .pattern .start], false⟩
    let r : RecordType := ⟨"user", none, none, [id, name]⟩
    d.resolve = .ok r ∧ ∃ r', r.explicit.resolve = .ok r' ∧ r'.name = "user" ∧
      r'.selectList = "*" ∧ r'.source = "user" ∧ r'.fields = [id, name] := by
  intro d id name r
  have hr : d.resolve = .ok r := by decide +kernel
  exact ⟨hr, resolve_explicit hr⟩

end RecordDeclaration

end RecordQuery
