import Mathlib.Data.List.Perm.Basic
import RecordQuery.Proofs.Declaration
import RecordQuery.Proofs.Utf8
import RecordQuery.Schema.Registry

/-!
# Registration

A registry does not depend on the order of its declarations. It is built if and only if all of
them resolve, to different names; each is then found by its name, and they are listed by name, in
the order of the bytes.
-/

namespace RecordQuery

open Outcome Text

namespace Registry

variable {rs rs' : List RecordType} {ds ds' : List RecordDeclaration} {reg : Registry}

/-! ## The order of the listing -/

/-- The list as it is stored, in the order of the names. -/
def listed (rs : List RecordType) : List RecordType :=
  rs.mergeSort fun a b => !decide (b.name < a.name)

/-- No two names are the same. -/
def Distinct (rs : List RecordType) : Prop :=
  rs.Pairwise fun r r' => r.name ≠ r'.name

instance (rs : List RecordType) : Decidable (Distinct rs) :=
  inferInstanceAs (Decidable (rs.Pairwise fun r r' => r.name ≠ r'.name))

theorem Distinct.perm (h : Distinct rs) (hperm : rs.Perm rs') : Distinct rs' :=
  hperm.pairwise h Ne.symm

theorem listed_perm (rs : List RecordType) : (listed rs).Perm rs :=
  List.mergeSort_perm rs _

/-- What is listed is in order. -/
theorem pairwise_listed (h : Distinct rs) : (listed rs).Pairwise fun r r' => r.name < r'.name := by
  have hsorted : (listed rs).Pairwise fun r r' => (!decide (r'.name < r.name)) = true := by
    refine List.pairwise_mergeSort ?_ ?_ rs
    · intro a b c hab hbc
      simp only [Bool.not_eq_true', decide_eq_false_iff_not, String.not_lt] at hab hbc ⊢
      exact String.le_trans hab hbc
    · intro a b
      simp only [Bool.or_eq_true, Bool.not_eq_true', decide_eq_false_iff_not, String.not_lt]
      exact String.le_total a.name b.name
  have hdistinct : Distinct (listed rs) := h.perm (listed_perm rs).symm
  refine (hsorted.and hdistinct).imp ?_
  rintro r r' ⟨hle, hne⟩
  simp only [Bool.not_eq_true', decide_eq_false_iff_not, String.not_lt] at hle
  exact String.not_le.mp fun hge => hne (String.le_antisymm hle hge)

/-- There is one listing of the same record types, in whatever order they come. -/
theorem listed_eq_of_perm (h : Distinct rs) (hperm : rs.Perm rs') : listed rs = listed rs' := by
  have hlisted : (listed rs).Perm (listed rs') :=
    (listed_perm rs).trans (hperm.trans (listed_perm rs').symm)
  refine List.Perm.eq_of_pairwise ?_ (pairwise_listed h) (pairwise_listed (h.perm hperm)) hlisted
  intro r r' _ _ hlt hgt
  exact absurd hgt (String.lt_asymm hlt)

/-! ## When a registry is built -/

theorem duplicate?_eq_none {taken : List String} :
    duplicate? taken rs = none ↔ (∀ r ∈ rs, r.name ∉ taken) ∧ Distinct rs := by
  induction rs generalizing taken with
  | nil => simp [duplicate?, Distinct]
  | cons r rs ih =>
    have hfree (r' : RecordType) :
        r'.name ∉ r.name :: taken ↔ r.name ≠ r'.name ∧ r'.name ∉ taken := by
      rw [List.mem_cons, not_or, ne_comm]
    rw [duplicate?, Distinct, List.pairwise_cons, List.forall_mem_cons]
    by_cases hr : r.name ∈ taken
    · simp [hr]
    · simp only [List.contains_eq_mem, hr, decide_false, Bool.false_eq_true, if_false, ih, hfree]
      constructor
      · rintro ⟨hothers, hdistinct⟩
        exact ⟨⟨not_false, fun r' hr' => (hothers r' hr').2⟩, fun r' hr' => (hothers r' hr').1,
          hdistinct⟩
      · rintro ⟨⟨-, hothers⟩, hfirst, hdistinct⟩
        exact ⟨fun r' hr' => ⟨hfirst r' hr', hothers r' hr'⟩, hdistinct⟩

theorem ofRecords_eq_ok : ofRecords rs = .ok reg ↔ Distinct rs ∧ reg = ⟨listed rs⟩ := by
  have hdistinct : Distinct rs ↔ duplicate? [] rs = none := by simp [duplicate?_eq_none]
  rw [hdistinct, ofRecords]
  cases duplicate? [] rs with
  | none =>
    constructor
    · rintro ⟨⟩
      exact ⟨rfl, rfl⟩
    · rintro ⟨-, rfl⟩
      rfl
  | some name => exact ⟨nofun, fun h => nomatch h.1⟩

/-- A registry lists what its declarations resolve to. -/
theorem ofDeclarations_eq_ok : ofDeclarations ds = .ok reg ↔
    ∃ rs, List.Forall₂ (fun d r => d.resolve = .ok r) ds rs ∧ Distinct rs ∧ reg = ⟨listed rs⟩ := by
  unfold ofDeclarations
  simp only [bind_eq_ok, mapM_eq_ok, ofRecords_eq_ok]

/-- What declarations resolve to has their names, without the blanks around them. -/
theorem distinct_iff (h : List.Forall₂ (fun d r => RecordDeclaration.resolve d = .ok r) ds rs) :
    Distinct rs ↔ ds.Pairwise fun d d' => trim d.name ≠ trim d'.name := by
  have hnames : List.Forall₂ (fun d r => trim d.name = r.name) ds rs := h.imp fun d r hr =>
    (RecordDeclaration.resolve_eq_ok.mp hr).2.name.symm
  constructor
  · exact pairwise_of_forall₂ (S := (· ≠ ·)) (hnames.flip.imp fun _ _ hname => hname.symm)
  · exact pairwise_of_forall₂ (S := (· ≠ ·)) hnames

/-! ## What a registry holds -/

/-- Each of the declarations has its record type in the registry. -/
structure Holds (reg : Registry) (ds : List RecordDeclaration) : Prop where
  length : reg.records.length = ds.length
  found : ∀ name r, reg.resolve? name = some r ↔
    ∃ d ∈ ds, trim d.name = name ∧ d.resolve = .ok r
  unknown : ∀ name, reg.resolve? name = none ↔ ∀ d ∈ ds, trim d.name ≠ name
  once : ∃ rs, List.Forall₂ (fun d r => RecordDeclaration.resolve d = .ok r) ds rs ∧
    reg.records.Perm rs
  ordered : reg.records.Pairwise fun r r' =>
    encodeUtf8 r.name.toList < encodeUtf8 r'.name.toList
  /-- In whatever order the record types are kept, they are listed alike. -/
  listing : ∀ kept, kept.Perm reg.records → listed kept = reg.records

section Holds

variable (h : List.Forall₂ (fun d r => RecordDeclaration.resolve d = .ok r) ds rs)
include h

theorem mem_listed_iff {r : RecordType} : r ∈ listed rs ↔ ∃ d ∈ ds, d.resolve = .ok r := by
  rw [(listed_perm rs).mem_iff]
  constructor
  · exact exists_of_mem_right h
  · rintro ⟨d, hd, hr⟩
    obtain ⟨r', hr', hresolve⟩ := exists_of_mem_left h hd
    cases hr.symm.trans hresolve
    exact hr'

theorem resolve?_listed_eq_some (hdistinct : Distinct rs) {name : String} {r : RecordType} :
    resolve? ⟨listed rs⟩ name = some r ↔ ∃ d ∈ ds, trim d.name = name ∧ d.resolve = .ok r := by
  have hname {d : RecordDeclaration} (hr : d.resolve = .ok r) : r.name = trim d.name :=
    (RecordDeclaration.resolve_eq_ok.mp hr).2.name
  rw [resolve?, find?_key_eq_some_iff (hdistinct.perm (listed_perm rs).symm), mem_listed_iff h]
  constructor
  · rintro ⟨⟨d, hd, hr⟩, rfl⟩
    exact ⟨d, hd, (hname hr).symm, hr⟩
  · rintro ⟨d, hd, rfl, hr⟩
    exact ⟨⟨d, hd, hr⟩, hname hr⟩

theorem resolve?_listed_eq_none (hdistinct : Distinct rs) {name : String} :
    resolve? ⟨listed rs⟩ name = none ↔ ∀ d ∈ ds, trim d.name ≠ name := by
  simp only [Option.eq_none_iff_forall_ne_some, ne_eq, resolve?_listed_eq_some h hdistinct]
  constructor
  · intro hnone d hd hname
    obtain ⟨r, -, hr⟩ := exists_of_mem_left h hd
    exact hnone r ⟨d, hd, hname, hr⟩
  · rintro hall r ⟨d, hd, hname, -⟩
    exact hall d hd hname

theorem holds_listed (hdistinct : Distinct rs) : Holds ⟨listed rs⟩ ds where
  length := (listed_perm rs).length_eq.trans h.length_eq.symm
  found := fun _ _ => resolve?_listed_eq_some h hdistinct
  unknown := fun _ => resolve?_listed_eq_none h hdistinct
  once := ⟨rs, h, listed_perm rs⟩
  ordered := (pairwise_listed hdistinct).imp fun hlt => encodeUtf8_lt_iff.mpr hlt
  listing := by
    intro kept hkept
    have hperm : kept.Perm rs := hkept.trans (listed_perm rs)
    exact listed_eq_of_perm (hdistinct.perm hperm.symm) hperm

end Holds

/-! ## The order of the declarations -/

theorem exists_ofDeclarations_iff : (∃ reg, ofDeclarations ds = .ok reg) ↔
    (∀ d ∈ ds, ∃ r, d.resolve = .ok r) ∧ ds.Pairwise fun d d' => trim d.name ≠ trim d'.name := by
  simp only [ofDeclarations_eq_ok]
  constructor
  · rintro ⟨reg, rs, h, hdistinct, -⟩
    refine ⟨fun d hd => ?_, (distinct_iff h).mp hdistinct⟩
    obtain ⟨r, -, hr⟩ := exists_of_mem_left h hd
    exact ⟨r, hr⟩
  · rintro ⟨hall, hdistinct⟩
    obtain ⟨rs, hrs⟩ := (exists_ok_iff fun _ => mapM_eq_error).mpr hall
    have h := mapM_eq_ok.mp hrs
    exact ⟨_, rs, h, (distinct_iff h).mpr hdistinct, rfl⟩

/-- **A registry does not depend on the order of its declarations.** It is built from all orders
or from none: if and only if every declaration resolves, and to another name than the others; and
it is the same registry, which holds each of them. -/
theorem ofDeclarations_perm (h : ds.Perm ds') :
    ((∃ reg, ofDeclarations ds = .ok reg) ↔ ∃ reg, ofDeclarations ds' = .ok reg) ∧
    ((∃ reg, ofDeclarations ds = .ok reg) ↔ (∀ d ∈ ds, ∃ r, d.resolve = .ok r) ∧
      ds.Pairwise fun d d' => trim d.name ≠ trim d'.name) ∧
    ∀ reg, ofDeclarations ds = .ok reg → ofDeclarations ds' = .ok reg ∧ reg.Holds ds := by
  refine ⟨?_, exists_ofDeclarations_iff, fun reg hreg => ?_⟩
  · rw [exists_ofDeclarations_iff, exists_ofDeclarations_iff]
    refine and_congr ⟨fun hall d hd => hall d (h.mem_iff.mpr hd),
      fun hall d hd => hall d (h.mem_iff.mp hd)⟩ (h.pairwise_iff Ne.symm)
  · obtain ⟨rs, hrs, hdistinct, rfl⟩ := ofDeclarations_eq_ok.mp hreg
    obtain ⟨rs', hrs', hperm⟩ := List.perm_comp_forall₂ h.symm hrs
    have hlisted : listed rs = listed rs' := listed_eq_of_perm hdistinct hperm.symm
    refine ⟨ofDeclarations_eq_ok.mpr ⟨rs', hrs', hdistinct.perm hperm.symm, ?_⟩,
      holds_listed hrs hdistinct⟩
    rw [hlisted]

/-- A capital stands before small letters, and these before letters that are not ASCII. -/
theorem ofDeclarations_perm_accents :
    let upper : RecordDeclaration := { name := "User", select := some "u.id" }
    let user : RecordDeclaration := { name := " user" }
    let umlaut : RecordDeclaration := { name := "\u00fcser\t" }
    let reg : Registry :=
      ⟨[⟨"User", some "u.id", none, []⟩, ⟨"user", none, none, []⟩, ⟨"\u00fcser", none, none, []⟩]⟩
    [upper, user, umlaut].Perm [umlaut, upper, user] ∧
      ofDeclarations [upper, user, umlaut] = .ok reg ∧
      ofDeclarations [umlaut, upper, user] = .ok reg ∧ reg.Holds [upper, user, umlaut] := by
  intro upper user umlaut reg
  have hperm : [upper, user, umlaut].Perm [umlaut, upper, user] := by decide +kernel
  have hlisted : listed reg.records = reg.records := List.mergeSort_of_pairwise (by decide +kernel)
  have hresolve : [upper, user, umlaut].mapM RecordDeclaration.resolve = .ok reg.records := by
    decide +kernel
  have hreg : ofDeclarations [upper, user, umlaut] = .ok reg := by
    refine ofDeclarations_eq_ok.mpr ⟨reg.records, mapM_eq_ok.mp hresolve, ?_, by rw [hlisted]⟩
    decide +kernel
  exact ⟨hperm, hreg, (ofDeclarations_perm hperm).2.2 reg hreg⟩

end Registry

end RecordQuery
