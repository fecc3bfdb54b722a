import RecordQuery.Proofs.Demand
import RecordQuery.Proofs.Outcome
import RecordQuery.Request

/-!
# Wider limits

A limit does nothing but refuse. Under limits that are nowhere lower, a request that
compiles compiles to the same query, and one that is at fault by itself is refused for
the same fault: only what a limit refused may turn out otherwise.
-/

namespace RecordQuery

open Outcome Text

/-- No limit of `wide` is lower than that of `narrow`. -/
structure Limits.Within (narrow wide : Limits) : Prop where
  bounds : ∀ l, narrow.max l ≤ wide.max l
  pageSize : narrow.pageSize ≤ wide.pageSize

namespace Limits

/-- Of two limits the higher, each by itself. -/
def join (a b : Limits) : Limits where
  filterLength := Max.max a.filterLength b.filterLength
  orderLength := Max.max a.orderLength b.orderLength
  predicates := Max.max a.predicates b.predicates
  depth := Max.max a.depth b.depth
  listValues := Max.max a.listValues b.listValues
  orderFields := Max.max a.orderFields b.orderFields
  pageSize := Max.max a.pageSize b.pageSize

theorem max_le_join_left (a b : Limits) (l : Limit) : a.max l ≤ (a.join b).max l := by
  cases l <;> exact Nat.le_max_left _ _

theorem max_le_join_right (a b : Limits) (l : Limit) : b.max l ≤ (a.join b).max l := by
  cases l <;> exact Nat.le_max_right _ _

/-- Limits that allow what is demanded, and are nowhere lower. -/
def roomFor (limits : Limits) (d : Demand) : Limits :=
  limits.join { predicates := d.predicates, depth := d.depth, listValues := d.listValues }

theorem roomFor_allow (limits : Limits) (d : Demand) : (limits.roomFor d).Allow d where
  predicates := Nat.le_max_right ..
  depth := Nat.le_max_right ..
  listValues := Nat.le_max_right ..

end Limits

namespace QueryError

/-- A bound of the limits is exceeded. -/
def Exceeds (limits : Limits) (e : QueryError) : Prop :=
  ∃ l, e = .limitExceeded l (limits.max l)

/-- A bound of the limits is exceeded, or a page is larger than they allow. -/
def OfLimits (limits : Limits) (e : QueryError) : Prop :=
  e.Exceeds limits ∨ ∃ size, e = .invalidPage size (.sizeTooLarge limits.pageSize)

end QueryError

open QueryError (Exceeds OfLimits)

variable {narrow wide : Limits}

/-! ## Checks against a bound -/

section Bounds

variable {α : Type} {x y : Except QueryError α}

/-- A check that one thing more still fits. -/
theorem Limits.sameUnless_full (l : Limit) (n : Nat) (h : narrow.max l ≤ wide.max l)
    (hxy : SameUnless (Exceeds narrow) x y) :
    SameUnless (Exceeds narrow)
      (if narrow.max l ≤ n then .error (.limitExceeded l (narrow.max l)) else x)
      (if wide.max l ≤ n then .error (.limitExceeded l (wide.max l)) else y) := by
  by_cases hn : narrow.max l ≤ n
  · rw [if_pos hn]
    exact .of_error ⟨l, rfl⟩ _
  · have hw : ¬ wide.max l ≤ n := by omega
    rwa [if_neg hn, if_neg hw]

/-- A check that there is not too much already. -/
theorem Limits.sameUnless_over (l : Limit) (n : Nat) (h : narrow.max l ≤ wide.max l)
    (hxy : SameUnless (Exceeds narrow) x y) :
    SameUnless (Exceeds narrow)
      (if narrow.max l < n then .error (.limitExceeded l (narrow.max l)) else x)
      (if wide.max l < n then .error (.limitExceeded l (wide.max l)) else y) := by
  by_cases hn : narrow.max l < n
  · rw [if_pos hn]
    exact .of_error ⟨l, rfl⟩ _
  · have hw : ¬ wide.max l < n := by omega
    rwa [if_neg hn, if_neg hw]

end Bounds

/-! ## The parser -/

namespace Parser

theorem stepTerm_within (h : ∀ l, narrow.max l ≤ wide.max l) (s : State) (t : Token) :
    SameUnless (Exceeds narrow) (stepTerm narrow s t) (stepTerm wide s t) := by
  unfold stepTerm
  cases t.kind with
  | leftParen => exact Limits.sameUnless_full .depth _ (h .depth) (.refl _ _)
  | name => exact Limits.sameUnless_full .predicates _ (h .predicates) (.refl _ _)
  | _ => exact .refl _ _

/-- A token is taken alike, unless a limit refuses it. -/
theorem step_within (h : ∀ l, narrow.max l ≤ wide.max l) (s : State) (t : Token) :
    SameUnless (Exceeds narrow) (step narrow s t) (step wide s t) := by
  obtain ⟨expecting, pending, groups, predicates⟩ := s
  cases expecting with
  | term => exact stepTerm_within h _ t
  | listValue field opened read =>
    refine SameUnless.bind (.refl _ _) fun l => ?_
    exact Limits.sameUnless_full .listValues read.length (h .listValues) (.refl _ _)
  | _ => exact .refl _ _

/-- Tokens are taken alike, unless a limit refuses one of them. -/
theorem run_within (h : ∀ l, narrow.max l ≤ wide.max l) (s : State) (ts : List Token) :
    SameUnless (Exceeds narrow) (run narrow s ts) (run wide s ts) := by
  induction ts generalizing s with
  | nil => exact .refl _ _
  | cons t ts ih => exact SameUnless.bind (step_within h s t) ih

end Parser

theorem parse_within (h : ∀ l, narrow.max l ≤ wide.max l) (text : String) :
    SameUnless (Exceeds narrow) (parse narrow text) (parse wide text) :=
  SameUnless.bind (Parser.run_within h _ _) fun _ => .refl _ _

theorem compileFilter_within (h : ∀ l, narrow.max l ≤ wide.max l) (r : RecordType)
    (text : String) :
    SameUnless (Exceeds narrow) (compileFilter r narrow text) (compileFilter r wide text) :=
  SameUnless.bind (parse_within h text) fun _ => .refl _ _

theorem Order.compile_within (h : ∀ l, narrow.max l ≤ wide.max l) (r : RecordType)
    (strict : Bool) (text : String) :
    SameUnless (Exceeds narrow) (Order.compile r narrow strict text)
      (Order.compile r wide strict text) :=
  Limits.sameUnless_over .orderFields _ (h .orderFields) (.refl _ _)

/-! ## Requests -/

namespace Request

theorem checkLength_within (l : Limit) (h : narrow.max l ≤ wide.max l) (raw : Option String) :
    SameUnless (Exceeds narrow) (checkLength l (narrow.max l) raw)
      (checkLength l (wide.max l) raw) := by
  cases raw with
  | none => exact .refl _ _
  | some text => exact Limits.sameUnless_over l _ h (.refl _ _)

theorem compileFilter_within (h : ∀ l, narrow.max l ≤ wide.max l) (r : RecordType)
    (raw : Option String) :
    SameUnless (Exceeds narrow) (compileFilter r narrow raw) (compileFilter r wide raw) := by
  refine SameUnless.bind (checkLength_within .filterLength (h .filterLength) raw) fun _ => ?_
  refine SameUnless.bind (.refl _ _) fun text => ?_
  cases text with
  | none => exact .refl _ _
  | some text =>
    have hfilter := RecordQuery.compileFilter_within h r text
    exact SameUnless.bind hfilter fun _ => .refl _ _

theorem compileOrder_within {settings : Settings} (h : ∀ l, settings.limits.max l ≤ wide.max l)
    (r : RecordType) (raw : Option String) :
    SameUnless (Exceeds settings.limits) (compileOrder r settings raw)
      (compileOrder r { settings with limits := wide } raw) := by
  refine SameUnless.bind (checkLength_within .orderLength (h .orderLength) raw) fun _ => ?_
  refine SameUnless.bind (.refl _ _) fun text => ?_
  cases text with
  | none => exact .refl _ _
  | some text => exact Order.compile_within h r settings.strictOrder text

theorem checkPage_within (h : narrow.pageSize ≤ wide.pageSize) (p : Page) :
    SameUnless (OfLimits narrow) (checkPage narrow.pageSize p) (checkPage wide.pageSize p) := by
  unfold checkPage
  by_cases hnumber : p.number = 0
  · simp only [if_pos hnumber]
    exact .refl _ _
  · by_cases hsize : p.size = 0
    · simp only [if_neg hnumber, if_pos hsize]
      exact .refl _ _
    · simp only [if_neg hnumber, if_neg hsize]
      by_cases hover : narrow.pageSize < p.size
      · rw [if_pos hover]
        exact .of_error (.inr ⟨p.size, rfl⟩) _
      · have hwide : ¬ wide.pageSize < p.size :=
          UInt32.not_lt.mpr (UInt32.le_trans (UInt32.not_lt.mp hover) h)
        rw [if_neg hover, if_neg hwide]
        exact .refl _ _

theorem compile_sameUnless {settings : Settings} (h : settings.limits.Within wide)
    (registry : Registry) (request : Request) (name : String) :
    SameUnless (OfLimits settings.limits) (compile registry settings request name)
      (compile registry { settings with limits := wide } request name) := by
  have hexceeds (e : QueryError) : e.Exceeds settings.limits → e.OfLimits settings.limits := .inl
  unfold compile
  cases registry.resolve? name with
  | none => exact .refl _ _
  | some r =>
    refine SameUnless.bind ((compileFilter_within h.bounds r request.filter).imp hexceeds) ?_
    intro condition
    refine SameUnless.bind ((compileOrder_within h.bounds r request.order).imp hexceeds) ?_
    intro order
    exact SameUnless.bind (checkPage_within h.pageSize request.page) fun _ => .refl _ _

/-- **Limits only limit**: under wider limits, a request that compiles compiles to the same query,
and one that is refused is refused for the same fault, unless a limit refused it. -/
theorem compile_of_within {settings : Settings} {wide : Limits} (h : settings.limits.Within wide)
    (registry : Registry) (request : Request) (name : String) :
    (∀ q, compile registry settings request name = .ok q →
      compile registry { settings with limits := wide } request name = .ok q) ∧
    ∀ e, compile registry settings request name = .error e → ¬ e.OfLimits settings.limits →
      compile registry { settings with limits := wide } request name = .error e := by
  have hsame := compile_sameUnless h registry request name
  exact ⟨fun q => hsame.eq_ok, fun e => hsame.eq_error⟩

/-- Limits that a request just keeps to, and a fault of its own under the same limits. -/
theorem compile_of_within_tight :
    let registry : Registry := ⟨[⟨"user", none, none,
      [⟨"age", "u.age", .integer, .allFor .integer, true⟩]⟩]⟩
    let tight : Limits :=
      { filterLength := 25, orderLength := 8, predicates := 1, depth := 1, listValues := 2,
        orderFields := 1, pageSize := 20 }
    let kept : Request := { filter := some "(age+$in+(1,2))", order := some "age desc" }
    let faulty : Request := { filter := some "(nick+$null)", order := some "age,age" }
    let q : Query := ⟨some ⟨"u.age IN (?, ?)", [.integer 1, .integer 2]⟩, [⟨"u.age", .descending⟩],
      ⟨1, 20⟩⟩
    tight.Within {} ∧ ¬ (QueryError.unknownField "nick").OfLimits tight ∧
      compile registry { limits := tight } kept "user" = .ok q ∧
      compile registry {} kept "user" = .ok q ∧
      compile registry { limits := tight } faulty "user" = .error (.unknownField "nick") ∧
      compile registry {} faulty "user" = .error (.unknownField "nick") := by
  intro registry tight kept faulty q
  have hwithin : ({ limits := tight } : Settings).limits.Within {} := by
    constructor
    · intro l
      cases l <;> decide
    · decide
  have hown : ¬ (QueryError.unknownField "nick").OfLimits tight := by
    simp [OfLimits, Exceeds]
  have hkept : compile registry { limits := tight } kept "user" = .ok q := by decide +kernel
  have hfaulty : compile registry { limits := tight } faulty "user" =
      .error (.unknownField "nick") := by decide +kernel
  have hkept' := (compile_of_within hwithin registry kept "user").1 q hkept
  have hfaulty' := (compile_of_within hwithin registry faulty "user").2 _ hfaulty hown
  exact ⟨hwithin, hown, hkept, hkept', hfaulty, hfaulty'⟩

end Request

end RecordQuery
