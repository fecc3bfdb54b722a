import RecordQuery.Proofs.Demand
import RecordQuery.Proofs.ParserSoundness

/-!
# Runs of the parser

What the tokens of a whole derivation do: they are read into the expression that they write, if the
limits leave room for what they demand. A limit is reached by nothing else.
-/

namespace RecordQuery.Parser

open Grammar Outcome Text
open Demand (ofTokens beside neutralKinds listLength)

variable {limits : Limits} {s s' : State} {t : Token}

/-! ## Runs over the tokens of a derivation -/

theorem run_cons {t : Token} {ts : List Token} {s₁ : State} (h : step limits s t = .ok s₁)
    (hr : run limits s₁ ts = .ok s') : run limits s (t :: ts) = .ok s' :=
  bind_eq_ok.mpr ⟨s₁, h, hr⟩

theorem run_nil : run limits s [] = .ok s := rfl

theorem run_append {ts us : List Token} {s₁ : State} (h : run limits s ts = .ok s₁)
    (hr : run limits s₁ us = .ok s') : run limits s (ts ++ us) = .ok s' := by
  rw [run, List.foldlM_append]
  exact bind_eq_ok.mpr ⟨s₁, h, hr⟩

/-- The values of a list are read one after the other; the last makes the list the longest. -/
theorem run_listed {field : Token} {opened : Nat} {ts : List Token} {ls : List Literal}
    (h : Listed ts ls) (hs : s.expecting = .listValue field opened [])
    (hl : ls.length ≤ limits.listValues) :
    run limits s ts = .ok { s with expecting := .listEnd field opened ls } := by
  induction h with
  | one value => exact run_cons (step_listValue hs value hl) run_nil
  | more _ comma value ih =>
    rw [List.length_append, List.length_singleton] at hl
    refine run_append (ih (by omega)) (run_cons (step_comma rfl comma) ?_)
    exact run_cons (step_listValue rfl value (by omega)) run_nil

/-- The limits leave room for the demand beside what has been read. -/
structure State.Room (limits : Limits) (s : State) (d : Demand) : Prop where
  predicates : s.predicates + d.predicates ≤ limits.predicates
  depth : d.depth ≤ limits.depth
  listValues : d.listValues ≤ limits.listValues

theorem State.Room.left {a b : Demand} (h : s.Room limits (a.beside b)) : s.Room limits a := by
  obtain ⟨hp, hd, hl⟩ := h
  simp only [beside] at hp hd hl
  exact ⟨by omega, by omega, by omega⟩

/-- Once the first of two filters has been read, there is room for the second. -/
theorem State.Room.right {a b : Demand} (h : s.Room limits (a.beside b))
    (hs : s'.predicates = s.predicates + a.predicates) : s'.Room limits b := by
  obtain ⟨hp, hd, hl⟩ := h
  simp only [beside] at hp hd hl
  exact ⟨by omega, by omega, by omega⟩

/-- Only a name begins a predicate. -/
theorem predicates_of_step (h : step limits s t = .ok s') (ht : t.kind ≠ .name) :
    s'.predicates = s.predicates := by
  cases step_eq_ok_iff.mp h with
  | names _ name => exact absurd name ht
  | _ => rfl

/-- A token that is no name leaves the room as it is. -/
theorem State.Room.after_step {d : Demand} (h : s.Room limits d) (hs : step limits s t = .ok s')
    (ht : t.kind ≠ .name) : s'.Room limits d :=
  ⟨predicates_of_step hs ht ▸ h.predicates, h.depth, h.listValues⟩

/-- The tokens of a predicate are read into the predicate. -/
theorem run_leaf {ts : List Token} {p : Predicate} (h : Leaf ts p) (hs : s.expecting = .term)
    (hroom : s.Room limits (ofTokens s.groups.length ts)) :
    run limits s ts =
      .ok { s with expecting := .connective (.leaf p), predicates := s.predicates + 1 } := by
  rw [Demand.ofTokens_leaf h] at hroom
  have hp : s.predicates < limits.predicates := hroom.predicates
  have hlist := hroom.listValues
  cases h with
  | null name op | notNull name op =>
    exact run_cons (step_name hs name hp) (run_cons (step_operator rfl op) run_nil)
  | compare name op value =>
    exact run_cons (step_name hs name hp) (run_cons (step_operator rfl op)
      (run_cons (step_compared rfl value) run_nil))
  | pattern name op value =>
    exact run_cons (step_name hs name hp) (run_cons (step_operator rfl op)
      (run_cons (step_matched rfl value) run_nil))
  | isIn name op values =>
    refine run_cons (step_name hs name hp) (run_cons (step_operator rfl op) ?_)
    cases values with
    | single value => exact run_cons (step_singleValue rfl value) run_nil
    | @list opening closing ts ls opens listed closes =>
      change listLength (opening :: (ts ++ [closing])) ≤ _ at hlist
      rw [Demand.listLength_list opens listed closes] at hlist
      refine run_append (run_cons (step_opensList rfl opens) (run_listed listed rfl hlist)) ?_
      exact run_cons (step_closesList rfl closes) run_nil

/-- The parser may start on what the symbol derives: a conjunction does not
begin within another one, nor does a whole expression within anything. -/
def Ready (s : State) : Symbol → Prop
  | .term => s.expecting = .term
  | .andExpr => s.expecting = .term ∧ s.pending.conditions = none
  | .expr => s.expecting = .term ∧ s.pending = .none

/-- The parser has gone from `s` to `s'` over the tokens of `e`: the last term
of `e` is read, the rest of `e` waits for it, and nothing else has changed. -/
def Completed (s s' : State) (e : Expr Predicate) (sym : Symbol) : Prop :=
  s'.groups = s.groups ∧ ∃ last, s'.expecting = .connective last ∧
    match sym with
    | .term => s'.pending = s.pending ∧ last = e
    | .andExpr => s'.pending.alternatives = s.pending.alternatives ∧ s'.pending.conjoin last = e
    | .expr => s'.pending.close last = e

/-- The tokens of a derivation are read into the expression that they write. -/
theorem run_derives {sym : Symbol} {ts : List Token} {e : Expr Predicate} (h : Derives sym ts e)
    (hroom : s.Room limits (ofTokens s.groups.length ts)) (hs : Ready s sym) :
    ∃ s', run limits s ts = .ok s' ∧ s'.predicates = s.predicates + e.size ∧
      Completed s s' e sym := by
  -- the state is general: each part of a derivation starts where the one before it stopped
  induction h generalizing s with
  | predicate leaf => exact ⟨_, run_leaf leaf hs hroom, rfl, rfl, _, rfl, rfl, rfl⟩
  | @group opening closing ts e opens inner closes ih =>
    rw [Demand.ofTokens_group inner opens closes] at hroom
    have hd : s.groups.length < limits.depth :=
      Nat.le_trans (Demand.le_depth_ofTokens inner) hroom.depth
    have hopen := step_leftParen hs opens hd
    have hinside := hroom.after_step hopen (by simp [opens])
    obtain ⟨s₁, hrun, hsize, hgroups, last, hlast, hclose⟩ := ih hinside ⟨hs, rfl⟩
    -- inside the group nothing waits; what waits outside comes back when it closes
    have hshut := step_rightParen limits hlast closes hgroups
    exact ⟨_, run_append (run_cons hopen hrun) (run_cons hshut run_nil), hsize, rfl, _, rfl, rfl,
      hclose⟩
  | ofTerm term ih =>
    obtain ⟨s₁, hrun, hsize, hgroups, last, hlast, hpending, rfl⟩ := ih hroom hs.1
    refine ⟨s₁, hrun, hsize, hgroups, last, hlast, by rw [hpending], ?_⟩
    simp [Pending.conjoin, hpending, hs.2]
  | @and ts us t l r left joins right ihl ihr =>
    rw [Demand.ofTokens_joined left (by simp [neutralKinds, joins])] at hroom
    obtain ⟨s₁, hrun, hsize, hgroups, last, hlast, halternatives, rfl⟩ := ihl hroom.left hs
    have hjoin := step_and limits hlast joins
    have hroom₁ := hroom.right (hsize.trans (congrArg _ (Demand.predicates_ofTokens left).symm))
    rw [← hgroups] at hroom₁
    have hroom₂ := hroom₁.after_step hjoin (by simp [joins])
    obtain ⟨s₂, hrun', hsize', hgroups', last', hlast', hpending, rfl⟩ := ihr hroom₂ rfl
    refine ⟨s₂, run_append hrun (run_cons hjoin hrun'), ?_, hgroups'.trans hgroups, _, hlast',
      ?_, ?_⟩
    · rw [hsize', Expr.size_and, ← Nat.add_assoc]
      exact congrArg (· + _) hsize
    · rw [hpending]
      exact halternatives
    · rw [hpending]
      rfl
  | ofAndExpr conditions ih =>
    obtain ⟨s₁, hrun, hsize, hgroups, last, hlast, halternatives, rfl⟩ :=
      ih hroom ⟨hs.1, by rw [hs.2]; rfl⟩
    refine ⟨s₁, hrun, hsize, hgroups, last, hlast, ?_⟩
    rw [hs.2] at halternatives
    simp [Pending.close, halternatives, Pending.none]
  | @or ts us t l r left joins right ihl ihr =>
    rw [Demand.ofTokens_joined left (by simp [neutralKinds, joins])] at hroom
    obtain ⟨s₁, hrun, hsize, hgroups, last, hlast, rfl⟩ := ihl hroom.left hs
    have hjoin := step_or limits hlast joins
    have hroom₁ := hroom.right (hsize.trans (congrArg _ (Demand.predicates_ofTokens left).symm))
    rw [← hgroups] at hroom₁
    have hroom₂ := hroom₁.after_step hjoin (by simp [joins])
    obtain ⟨s₂, hrun', hsize', hgroups', last', hlast', halternatives, rfl⟩ :=
      ihr hroom₂ ⟨rfl, rfl⟩
    refine ⟨s₂, run_append hrun (run_cons hjoin hrun'), ?_, hgroups'.trans hgroups, _, hlast', ?_⟩
    · rw [hsize', Expr.size_or, ← Nat.add_assoc]
      exact congrArg (· + _) hsize
    · simp [Pending.close, halternatives]

/-! ## Limits that are too low -/

theorem run_cons_eq_ok {t : Token} {ts : List Token} :
    run limits s (t :: ts) = .ok s' ↔ ∃ s₁, step limits s t = .ok s₁ ∧ run limits s₁ ts = .ok s' :=
  bind_eq_ok

theorem run_append_eq_ok {ts us : List Token} :
    run limits s (ts ++ us) = .ok s' ↔
      ∃ s₁, run limits s ts = .ok s₁ ∧ run limits s₁ us = .ok s' := by
  rw [run, List.foldlM_append]
  exact bind_eq_ok

theorem lt_of_step_leftParen (hs : s.expecting = .term) (ht : t.kind = .leftParen)
    (h : step limits s t = .ok s') : s.groups.length < limits.depth := by
  by_contra hd
  simp [step, stepTerm, hs, ht, Nat.not_lt.mp hd] at h

theorem lt_of_step_name (hs : s.expecting = .term) (ht : t.kind = .name)
    (h : step limits s t = .ok s') : s.predicates < limits.predicates := by
  by_contra hp
  simp [step, stepTerm, hs, ht, Nat.not_lt.mp hp] at h

theorem lt_of_step_listValue {field : Token} {opened : Nat} {read : List Literal} {l : Literal}
    (hs : s.expecting = .listValue field opened read) (ht : Value t l)
    (h : step limits s t = .ok s') : read.length < limits.listValues := by
  by_contra hl
  simp [step, hs, literalFor_eq_ok_iff.mpr ht, Nat.not_lt.mp hl, bind, Except.bind] at h

theorem length_le_of_run_listed {field : Token} {opened : Nat} {ts : List Token}
    {ls : List Literal} (h : Listed ts ls) (hs : s.expecting = .listValue field opened [])
    (hrun : run limits s ts = .ok s') : ls.length ≤ limits.listValues := by
  induction h generalizing s' with
  | one value =>
    obtain ⟨s₁, hstep, -⟩ := run_cons_eq_ok.mp hrun
    exact lt_of_step_listValue hs value hstep
  | @more ts ls c v l listed comma value ih =>
    obtain ⟨s₁, hrun, hrest⟩ := run_append_eq_ok.mp hrun
    cases (run_listed listed hs (ih hrun)).symm.trans hrun
    obtain ⟨s₂, hcomma, hrest⟩ := run_cons_eq_ok.mp hrest
    cases (step_comma rfl comma).symm.trans hcomma
    obtain ⟨s₃, hvalue, -⟩ := run_cons_eq_ok.mp hrest
    rw [List.length_append, List.length_singleton]
    exact lt_of_step_listValue rfl value hvalue

theorem room_of_run_leaf {ts : List Token} {p : Predicate} (h : Leaf ts p)
    (hs : s.expecting = .term) (hd : s.groups.length ≤ limits.depth)
    (hrun : run limits s ts = .ok s') : s.Room limits (ofTokens s.groups.length ts) := by
  rw [Demand.ofTokens_leaf h]
  cases h with
  | null name op | notNull name op =>
    obtain ⟨s₁, hname, -⟩ := run_cons_eq_ok.mp hrun
    exact ⟨lt_of_step_name hs name hname, hd, Nat.zero_le _⟩
  | compare name op value | pattern name op value =>
    obtain ⟨s₁, hname, -⟩ := run_cons_eq_ok.mp hrun
    refine ⟨lt_of_step_name hs name hname, hd, ?_⟩
    show listLength [_] ≤ _
    rw [Demand.listLength_value value]
    exact Nat.zero_le _
  | isIn name op values =>
    obtain ⟨s₁, hname, hrest⟩ := run_cons_eq_ok.mp hrun
    have hp := lt_of_step_name hs name hname
    refine ⟨hp, hd, ?_⟩
    cases (step_name hs name hp).symm.trans hname
    obtain ⟨s₂, hop, hrest⟩ := run_cons_eq_ok.mp hrest
    cases (step_operator rfl op).symm.trans hop
    cases values with
    | single value =>
      show listLength [_] ≤ _
      rw [Demand.listLength_value value]
      exact Nat.zero_le _
    | list opens listed closes =>
      obtain ⟨s₃, hopen, hrest⟩ := run_cons_eq_ok.mp hrest
      cases (step_opensList rfl opens).symm.trans hopen
      obtain ⟨s₄, hlist, -⟩ := run_append_eq_ok.mp hrest
      show listLength (_ :: (_ ++ [_])) ≤ _
      rw [Demand.listLength_list opens listed closes]
      exact length_le_of_run_listed listed rfl hlist

theorem State.Room.beside {a b : Demand} (h : s.Room limits a) (h' : s'.Room limits b)
    (hs : s'.predicates = s.predicates + a.predicates) : s.Room limits (a.beside b) := by
  obtain ⟨-, hd, hl⟩ := h
  obtain ⟨hp, hd', hl'⟩ := h'
  rw [hs, Nat.add_assoc] at hp
  exact ⟨hp, Nat.max_le.mpr ⟨hd, hd'⟩, Nat.max_le.mpr ⟨hl, hl'⟩⟩

/-- What has been read has found room within the limits. -/
theorem room_of_run {sym : Symbol} {ts : List Token} {e : Expr Predicate} (h : Derives sym ts e)
    (hrun : run limits s ts = .ok s') (hs : Ready s sym) (hd : s.groups.length ≤ limits.depth) :
    s.Room limits (ofTokens s.groups.length ts) := by
  induction h generalizing s s' with
  | predicate leaf => exact room_of_run_leaf leaf hs hd hrun
  | group opens inner closes ih =>
    obtain ⟨s₁, hopen, hrest⟩ := run_cons_eq_ok.mp hrun
    have hlt := lt_of_step_leftParen hs opens hopen
    cases (step_leftParen hs opens hlt).symm.trans hopen
    obtain ⟨s₂, hinner, -⟩ := run_append_eq_ok.mp hrest
    rw [Demand.ofTokens_group inner opens closes]
    obtain ⟨hp, hdepth, hl⟩ := ih hinner ⟨hs, rfl⟩ hlt
    exact ⟨hp, hdepth, hl⟩
  | ofTerm term ih => exact ih hrun hs.1 hd
  | and left joins right ihl ihr =>
    obtain ⟨s₁, hleft, hrest⟩ := run_append_eq_ok.mp hrun
    obtain ⟨s₂, hjoin, hright⟩ := run_cons_eq_ok.mp hrest
    have hroom := ihl hleft hs hd
    -- the left side is read as it is derived, so the right side starts after it
    obtain ⟨_, hleft', hsize, hgroups, last, hlast, -⟩ := run_derives left hroom hs
    cases hleft'.symm.trans hleft
    cases (step_and limits hlast joins).symm.trans hjoin
    rw [← hgroups] at hd
    have hroom' := ihr hright rfl hd
    rw [Demand.ofTokens_joined left (by simp [neutralKinds, joins])]
    rw [hgroups] at hroom'
    exact hroom.beside hroom' (hsize.trans (congrArg _ (Demand.predicates_ofTokens left).symm))
  | ofAndExpr conditions ih => exact ih hrun ⟨hs.1, by rw [hs.2]; rfl⟩ hd
  | or left joins right ihl ihr =>
    obtain ⟨s₁, hleft, hrest⟩ := run_append_eq_ok.mp hrun
    obtain ⟨s₂, hjoin, hright⟩ := run_cons_eq_ok.mp hrest
    have hroom := ihl hleft hs hd
    obtain ⟨_, hleft', hsize, hgroups, last, hlast, -⟩ := run_derives left hroom hs
    cases hleft'.symm.trans hleft
    cases (step_or limits hlast joins).symm.trans hjoin
    rw [← hgroups] at hd
    have hroom' := ihr hright ⟨rfl, rfl⟩ hd
    rw [Demand.ofTokens_joined left (by simp [neutralKinds, joins])]
    rw [hgroups] at hroom'
    exact hroom.beside hroom' (hsize.trans (congrArg _ (Demand.predicates_ofTokens left).symm))

/-! ## The whole text -/

/-- What is derived is read, where the limits leave room for what it demands. -/
theorem parse_of_allow {ts : List Token} {e : Expr Predicate} (length : Nat)
    (h : Derives .expr ts e) (hroom : limits.Allow (ofTokens 0 ts)) :
    Lexed.parse limits length ⟨ts, none⟩ = .ok e := by
  have hstart : State.start.Room limits (ofTokens 0 ts) := by
    refine ⟨?_, hroom.depth, hroom.listValues⟩
    rw [State.start, Nat.zero_add]
    exact hroom.predicates
  obtain ⟨s, hrun, -, hgroups, last, hlast, hclose⟩ := run_derives h hstart ⟨rfl, rfl⟩
  have hne : ts.isEmpty = false := by simpa using h.ne_nil
  refine bind_eq_ok.mpr ⟨s, hrun, ?_⟩
  have hg : s.groups = [] := hgroups
  simp [hne, finish, hlast, hg, hclose]

/-- Whatever is read, the limits allow what it demands. -/
theorem allow_of_parse {length : Nat} {l : Lexed} {e : Expr Predicate}
    (h : l.parse limits length = .ok e) : limits.Allow (ofTokens 0 l.tokens) := by
  obtain ⟨-, hderives⟩ := derives_of_parse h
  obtain ⟨s, hrun, -⟩ := bind_eq_ok.mp h
  obtain ⟨hp, hd, hl⟩ := room_of_run hderives hrun ⟨rfl, rfl⟩ (Nat.zero_le _)
  rw [State.start, Nat.zero_add] at hp
  exact ⟨hp, hd, hl⟩

/-- **The limits are exact**: a text is read if and only if it is all tokens, the
tokens are derived, and the limits allow what they demand. -/
theorem parse_eq_ok_iff {text : String} {e : Expr Predicate} :
    parse limits text = .ok e ↔ (Lexed.ofText text).failure = none ∧
      Derives .expr (Lexed.ofText text).tokens e ∧ limits.Allow (.ofText text) := by
  constructor
  · intro h
    obtain ⟨hfailure, hderives⟩ := derives_of_parse h
    exact ⟨hfailure, hderives, allow_of_parse h⟩
  · rintro ⟨hfailure, hderives, hallow⟩
    have hlexed : Lexed.ofText text = ⟨(Lexed.ofText text).tokens, none⟩ :=
      congrArg (Lexed.mk _) hfailure
    rw [parse, hlexed]
    exact parse_of_allow _ hderives hallow

/-- A text that is one predicate. -/
theorem parse_of_leaf {text : String} {ts : List Token} {p : Predicate}
    (hts : Lexed.ofText text = ⟨ts, none⟩) (h : Leaf ts p) (hp : 0 < limits.predicates)
    (hl : listLength (ts.drop 2) ≤ limits.listValues) : parse limits text = .ok (.leaf p) := by
  rw [parse, hts]
  refine parse_of_allow _ (.ofAndExpr (.ofTerm (.predicate h))) ?_
  rw [Demand.ofTokens_leaf h]
  exact ⟨hp, Nat.zero_le _, hl⟩

end RecordQuery.Parser
