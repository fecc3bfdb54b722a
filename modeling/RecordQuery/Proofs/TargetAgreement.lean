import RecordQuery.Proofs.Requests
import RecordQuery.Proofs.StatementRuns

/-!
# Agreement of the targets

A query can be applied to a statement, which substitutes placeholders in finished
text, or to a bound query, which is written from front to back and counts what has
been bound so far. Both give the same SQL up to the page: the number behind the
values that are there is the number of values bound, because every condition has
as many placeholders as values. The page is written as numbers by the one and bound
by the other.
-/

namespace RecordQuery

open Outcome Text

/-! ## What is written and bound -/

namespace BoundQuery

theorem pushFragment_cons_of_ne (q : BoundQuery) (values : List Datum) {c : Char} (h : c ≠ '?')
    (cs : List Char) :
    q.pushFragment values (c :: cs) = (q.push (String.singleton c)).pushFragment values cs := by
  rw [pushFragment.eq_def]
  simp only [if_neg h]

end BoundQuery

/-! ## Queries -/

namespace Query

/-- All that a query has in front of its page. Without a key there is no order. -/
def front (q : Query) (d : Dialect) (r : RecordType) : String :=
  "SELECT " ++ r.selectList ++ " FROM " ++ r.source ++
    Statement.clause " WHERE " (q.condition.map fun c => c.render d 1) ++
    Statement.clause " ORDER BY " (if q.order = [] then none else some (d.sortKeys q.order))

/-- The values of the condition. -/
def values (q : Query) : List Datum :=
  q.condition.elim [] (·.values)

theorem sql_applyTo_front (q : Query) (d : Dialect) (r : RecordType) :
    (q.applyTo (Statement.ofRecord d r)).sql =
      q.front d r ++ " LIMIT " ++ natText q.page.size.toNat ++ " OFFSET " ++
        natText q.page.offset := by
  have hlimit : " LIMIT " = " " ++ "LIMIT " := by decide
  rw [sql_applyTo, front, Dialect.paging, Dialect.limitOffset, hlimit]
  simp only [String.append_assoc, List.isEmpty_iff]

theorem params_applyTo (q : Query) (d : Dialect) (r : RecordType) :
    (q.applyTo (Statement.ofRecord d r)).params = q.values := by
  obtain ⟨condition, order, page⟩ := q
  cases condition with
  | none => cases order <;> rfl
  | some c => cases order <;> rfl

end Query

namespace Request

/-- The pages of requests that compile are counted from one. -/
theorem one_le_page_of_compile {registry : Registry} {settings : Settings} {request : Request}
    {name : String} {q : Query} (hq : request.compile registry settings name = .ok q) :
    1 ≤ q.page.number.toNat := by
  obtain ⟨r, -, -, -, hpage, hq⟩ := compile_eq_ok.mp hq
  rw [hq]
  unfold checkPage at hpage
  split at hpage
  · cases hpage
  · rename_i hzero
    have hne : request.page.number.toNat ≠ 0 := by
      intro h
      exact hzero (UInt32.toNat_inj.mp h)
    omega

end Request

end RecordQuery
