import RecordQuery.App
import RecordQuery.Proofs.TargetAgreement

/-!
# The two answers to a request

A request is answered with the parts of its query or with a complete statement. The
parts are written one by one, and the statement by a target that they are applied to;
still the statement is what anyone would put together from the parts that are
reported, and a request that is refused is refused for the same reason in both.
-/

namespace RecordQuery

open Json (Value)
open Outcome Text

/-! ## Reported parts -/

/-- The parts of a query as they are reported. -/
structure Parts where
  /-- The fragment and its values, if there is a condition. -/
  condition : Option (String × List Value)
  /-- The sort keys, none if there is no order. -/
  order : List String
  page : Nat
  pageSize : Nat

namespace Parts

/-- The report. -/
def toJson (p : Parts) (d : Dialect) : Value :=
  .object [
    ("dialect", .string d.name),
    ("condition", .orNull (p.condition.map fun (fragment, values) =>
      .object [("fragment", .string fragment), ("values", .array values)])),
    ("order", .array (p.order.map .string)),
    ("page", .ofNat p.page),
    ("pageSize", .ofNat p.pageSize)]

/-- The statement that the parts make up on the records of a type. -/
def sql (p : Parts) (r : RecordType) : String :=
  "SELECT " ++ r.selectList ++ " FROM " ++ r.source ++
    p.condition.elim "" (fun c => " WHERE " ++ c.1) ++
    (if p.order = [] then "" else " ORDER BY " ++ ", ".intercalate p.order) ++
    " LIMIT " ++ natText p.pageSize ++ " OFFSET " ++ natText ((p.page - 1) * p.pageSize)

/-- The values of the condition. -/
def params (p : Parts) : List Value :=
  p.condition.elim [] (·.2)

/-- The answer with that statement. -/
def statementJson (p : Parts) (d : Dialect) (r : RecordType) : Value :=
  .object [
    ("dialect", .string d.name),
    ("sql", .string (p.sql r)),
    ("params", .array p.params)]

/-- The parts of a query in a dialect. -/
def ofQuery (d : Dialect) (q : Query) : Parts where
  condition := q.condition.map fun c => (c.render d 1, c.values.map Datum.toJson)
  order := q.order.map d.sortKey
  page := q.page.number.toNat
  pageSize := q.page.size.toNat

theorem toJson_ofQuery (d : Dialect) (q : Query) :
    (ofQuery d q).toJson d = App.describeQuery d q := by
  simp only [toJson, ofQuery, App.describeQuery, Option.map_map, List.map_map]
  rfl

theorem sql_ofQuery (d : Dialect) (q : Query) (r : RecordType) :
    (ofQuery d q).sql r = (q.applyTo (Statement.ofRecord d r)).sql := by
  have horder : (if q.order.map d.sortKey = [] then "" else
      " ORDER BY " ++ ", ".intercalate (q.order.map d.sortKey)) =
      Statement.clause " ORDER BY " (if q.order = [] then none else some (d.sortKeys q.order)) := by
    cases q.order <;> rfl
  have hcondition : (ofQuery d q).condition.elim "" (fun c => " WHERE " ++ c.1) =
      Statement.clause " WHERE " (q.condition.map fun c => c.render d 1) := by
    cases hc : q.condition <;> simp [ofQuery, hc, Statement.clause]
  rw [Query.sql_applyTo_front, Query.front, ← hcondition, ← horder]
  rfl

theorem params_ofQuery (d : Dialect) (q : Query) (r : RecordType) :
    (ofQuery d q).params = (q.applyTo (Statement.ofRecord d r)).params.map Datum.toJson := by
  rw [Query.params_applyTo]
  cases hc : q.condition <;> simp [params, ofQuery, Query.values, hc]

theorem statementJson_ofQuery (d : Dialect) (q : Query) (r : RecordType) :
    (ofQuery d q).statementJson d r =
      App.describeStatement d (q.applyTo (Statement.ofRecord d r)) := by
  rw [statementJson, sql_ofQuery, params_ofQuery, App.describeStatement]

end Parts

/-! ## Reports of errors -/

/-- No report begins like that of a record type which is missing from the registry. -/
theorem QueryError.report_ne_notRegistered (e : QueryError) (name : String) :
    e.report ≠ s!"Record not registered: {name}" := by
  have hfirst : e.report.toList.head? ≠ some 'R' := by
    unfold report message
    cases e with
    | limitExceeded limit max => cases limit <;> simp [toString, Limit.description]
    | _ => simp [toString]
  intro h
  exact hfirst (by simp [h, toString])

namespace App

variable {app : App} {name : String} {request : Request}

/-! ## Answers -/

theorem compile_of_error {e : QueryError}
    (h : request.compile app.registry app.settings name = .error e) (full : Bool) :
    app.compile name request full = .error e.report := by
  unfold compile
  rw [h]
  rfl

/-- The record type of a request that compiles is found again. -/
theorem compile_of_ok {q : Query} (h : request.compile app.registry app.settings name = .ok q) :
    ∃ r, app.registry.resolve? name = some r ∧
      app.compile name request false = .ok (describeQuery app.dialect q) ∧
      app.compile name request true =
        .ok (describeStatement app.dialect (q.applyTo (Statement.ofRecord app.dialect r))) := by
  obtain ⟨r, hr, -⟩ := Request.compile_eq_ok.mp h
  unfold compile
  rw [h, hr]
  exact ⟨r, rfl, rfl, rfl⟩

/-- **The two answers agree**: both are the same error, or the statement is made up of
the parts that are reported. That a record type is found for the parts and not for the
statement does not happen. -/
theorem compile_modes (app : App) (name : String) (request : Request) :
    ((∃ e, request.compile app.registry app.settings name = .error e ∧
        ∀ full, app.compile name request full = .error e.report) ∨
      ∃ q r, request.compile app.registry app.settings name = .ok q ∧
        app.registry.resolve? name = some r ∧
        let parts := Parts.ofQuery app.dialect q
        1 ≤ parts.page ∧
          app.compile name request false = .ok (parts.toJson app.dialect) ∧
          app.compile name request true = .ok (parts.statementJson app.dialect r)) ∧
      ∀ full, app.compile name request full ≠ .error s!"Record not registered: {name}" := by
  cases h : request.compile app.registry app.settings name with
  | error e =>
    have hcompile := compile_of_error h
    refine ⟨.inl ⟨e, rfl, hcompile⟩, fun full hfull => ?_⟩
    rw [hcompile full, Except.error.injEq] at hfull
    exact e.report_ne_notRegistered name hfull
  | ok q =>
    obtain ⟨r, hr, hparts, hstatement⟩ := compile_of_ok h
    refine ⟨.inr ⟨q, r, rfl, hr, Request.one_le_page_of_compile h, ?_, ?_⟩, fun full hfull => ?_⟩
    · rw [hparts, Parts.toJson_ofQuery]
    · rw [hstatement, Parts.statementJson_ofQuery]
    · cases full with
      | false => rw [hparts] at hfull; cases hfull
      | true => rw [hstatement] at hfull; cases hfull

end App

end RecordQuery
