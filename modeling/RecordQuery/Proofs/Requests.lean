import RecordQuery.Proofs.Registration
import RecordQuery.Proofs.Resolution

/-!
# Compiled requests

What has to hold for a request to compile, and where the parts of its query come
from: the condition from the filter, the sort keys from fields of the record
type, the page from the request itself.
-/

namespace RecordQuery

open Outcome

namespace Order

/-- A sort key is the column of a field that the order text names. -/
theorem exists_field_of_keys {r : RecordType} {strict : Bool} {index : Nat} {taken : List String}
    {segments : List (List Char)} {ks : List SortKey}
    (h : keys r strict index taken segments = .ok ks) :
    ∀ k ∈ ks, ∃ name f, r.field? name = some f ∧ k.column = f.column := by
  induction segments generalizing index taken ks with
  | nil =>
    cases h
    exact fun k hk => absurd hk List.not_mem_nil
  | cons cs segments ih =>
    rw [keys] at h
    split at h
    · cases h
    · rename_i s _
      obtain ⟨direction, -, h⟩ := bind_eq_ok.mp h
      split at h
      · rename_i f hf
        obtain ⟨-, h⟩ := refuse_eq_ok.mp h
        obtain ⟨following, hfollowing, h⟩ := bind_eq_ok.mp h
        cases h
        refine List.forall_mem_cons.mpr ⟨⟨s.name, f, ?_, rfl⟩, ih hfollowing⟩
        exact (Option.filter_eq_some_iff.mp hf).1
      · obtain ⟨-, h⟩ := refuse_eq_ok.mp h
        exact ih h

end Order

namespace Registry

end Registry

namespace Request

/-- A filter parameter compiles to no condition if it holds no filter, and else
to the condition of its text. -/
theorem compileFilter_eq_ok {r : RecordType} {limits : Limits} {raw : Option String}
    {c : Option Condition} :
    compileFilter r limits raw = .ok c ↔
      checkLength .filterLength limits.filterLength raw = .ok () ∧
        (decode raw = .ok none ∧ c = none ∨ ∃ text condition, decode raw = .ok (some text) ∧
          RecordQuery.compileFilter r limits text = .ok condition ∧ c = some condition) := by
  unfold compileFilter
  rw [bind_eq_ok]
  constructor
  · rintro ⟨_, hlength, h⟩
    obtain ⟨text, hdecode, h⟩ := bind_eq_ok.mp h
    refine ⟨hlength, ?_⟩
    cases text with
    | none =>
      cases h
      exact .inl ⟨hdecode, rfl⟩
    | some text =>
      obtain ⟨condition, hcondition, h⟩ := bind_eq_ok.mp h
      cases h
      exact .inr ⟨text, condition, hdecode, hcondition, rfl⟩
  · rintro ⟨hlength, ⟨hdecode, rfl⟩ | ⟨text, condition, hdecode, hcondition, rfl⟩⟩
    · exact ⟨(), hlength, bind_eq_ok.mpr ⟨none, hdecode, rfl⟩⟩
    · exact ⟨(), hlength, bind_eq_ok.mpr ⟨some text, hdecode,
        bind_eq_ok.mpr ⟨condition, hcondition, rfl⟩⟩⟩

/-- The sort keys of an order parameter belong to fields of the record type. -/
theorem exists_field_of_compileOrder {r : RecordType} {settings : Settings} {raw : Option String}
    {ks : List SortKey} (h : compileOrder r settings raw = .ok ks) :
    ∀ k ∈ ks, ∃ name f, r.field? name = some f ∧ k.column = f.column := by
  obtain ⟨_, -, h⟩ := bind_eq_ok.mp h
  obtain ⟨text, -, h⟩ := bind_eq_ok.mp h
  cases text with
  | none =>
    cases h
    exact fun k hk => absurd hk List.not_mem_nil
  | some text =>
    simp only [Order.compile] at h
    split at h
    · cases h
    · exact Order.exists_field_of_keys h

/-- A request compiles if its record type is known, its filter and its order
compile, and its page can be asked for. -/
theorem compile_eq_ok {registry : Registry} {settings : Settings} {request : Request}
    {name : String} {q : Query} :
    request.compile registry settings name = .ok q ↔
      ∃ r, registry.resolve? name = some r ∧
        compileFilter r settings.limits request.filter = .ok q.condition ∧
        compileOrder r settings request.order = .ok q.order ∧
        checkPage settings.limits.pageSize request.page = .ok () ∧ q.page = request.page := by
  unfold compile
  cases hr : registry.resolve? name with
  | none => simp
  | some r =>
    constructor
    · intro h
      obtain ⟨condition, hcondition, h⟩ := bind_eq_ok.mp h
      obtain ⟨order, horder, h⟩ := bind_eq_ok.mp h
      obtain ⟨_, hpage, h⟩ := bind_eq_ok.mp h
      cases h
      exact ⟨r, rfl, hcondition, horder, hpage, rfl⟩
    · rintro ⟨_, ⟨⟩, hcondition, horder, hpage, hq⟩
      refine bind_eq_ok.mpr ⟨_, hcondition, bind_eq_ok.mpr ⟨_, horder,
        bind_eq_ok.mpr ⟨_, hpage, ?_⟩⟩⟩
      rw [← hq]
      rfl

end Request

end RecordQuery
