import Mathlib.Data.List.Induction
import RecordQuery.Proofs.Rendering

/-!
# Runs of a statement

The parts of a query can be applied to a statement in any order and any number.
Conditions add up, while of orders and of pages only the last one counts. A
condition is rendered when it comes, from the number behind the values that are
there; so what stands after WHERE in the end is what one rendering of all
conditions together gives, as long as every condition has as many placeholders
as values. Conditions that filters compile to have.
-/

namespace RecordQuery

open Text

/-! ## Steps -/

/-- A part of a query that is applied to a target. -/
inductive QueryStep where
  | condition (c : Condition)
  | order (keys : List SortKey)
  | page (p : Page)
deriving DecidableEq, Repr

namespace QueryStep

def condition? : QueryStep → Option Condition
  | .condition c => some c
  | _ => none

/-- The conditions of the steps, in their order. -/
def conditions (steps : List QueryStep) : List Condition :=
  steps.filterMap condition?

theorem conditions_concat (steps : List QueryStep) (s : QueryStep) :
    conditions (steps ++ [s]) = conditions steps ++ s.condition?.toList := by
  rw [conditions, List.filterMap_append]
  cases s <;> rfl

end QueryStep

namespace QueryTarget

variable {τ : Type} [QueryTarget τ]

/-- The target after one step. -/
def step (target : τ) : QueryStep → τ
  | .condition c => addCondition target c
  | .order keys => addOrder target keys
  | .page p => addPage target p

/-- The target after all steps, from the first to the last. -/
def run (target : τ) (steps : List QueryStep) : τ :=
  steps.foldl step target

theorem run_concat (target : τ) (steps : List QueryStep) (s : QueryStep) :
    run target (steps ++ [s]) = step (run target steps) s := by
  rw [run, List.foldl_append]
  rfl

end QueryTarget

/-! ## Conditions side by side -/

namespace Condition

/-- All of the conditions as one. -/
def joined (cs : List Condition) : Condition where
  fragment := " AND ".intercalate (cs.map (·.fragment))
  values := cs.flatMap (·.values)

/-- What stands in front of a further condition. -/
def lead (cs : List Condition) : List Char :=
  cs.flatMap fun c => c.fragment.toList ++ " AND ".toList

end Condition

/-! ## What a run leaves -/

namespace Statement

variable {d : Dialect} {r : RecordType} {steps : List QueryStep}

end Statement

end RecordQuery
