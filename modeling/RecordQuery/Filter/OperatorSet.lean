import RecordQuery.Filter.Operator

/-! Sets of operators. The members are kept in the order of `Operator.all`, each
once, so two sets with the same members are equal. -/
namespace RecordQuery

/-- A set of operators. -/
structure OperatorSet where
  members : List Operator
  sorted : members = Operator.all.filter members.contains
deriving DecidableEq, Repr

namespace OperatorSet

/-- The operators with a property. -/
def ofPred (p : Operator → Bool) : OperatorSet where
  members := Operator.all.filter p
  sorted := by
    refine List.filter_congr fun op hop => ?_
    rw [Bool.eq_iff_iff]
    simp [hop]

def contains (s : OperatorSet) (op : Operator) : Bool :=
  s.members.contains op

def empty : OperatorSet :=
  ofPred fun _ => false

def insert (s : OperatorSet) (op : Operator) : OperatorSet :=
  ofPred fun other => other == op || s.contains other

/-- The operators of a list, in any order and however often they occur in it. -/
def ofList (ops : List Operator) : OperatorSet :=
  ofPred ops.contains

/-- Every operator that applies to the type. -/
def allFor (t : FieldType) : OperatorSet :=
  ofPred fun op => op.appliesTo t

def isEmpty (s : OperatorSet) : Bool :=
  s.members.isEmpty

@[simp] theorem contains_ofPred (p : Operator → Bool) (op : Operator) :
    (ofPred p).contains op = p op := by
  rw [Bool.eq_iff_iff]
  simp [contains, ofPred, Operator.mem_all]

/-- A set is determined by its members. -/
theorem ext {s t : OperatorSet} (h : ∀ op, s.contains op = t.contains op) : s = t := by
  obtain ⟨ms, hs⟩ := s
  obtain ⟨mt, ht⟩ := t
  have hm : ms = mt := by
    rw [hs, ht]
    exact List.filter_congr fun op _ => h op
  subst hm
  rfl

end OperatorSet

end RecordQuery
