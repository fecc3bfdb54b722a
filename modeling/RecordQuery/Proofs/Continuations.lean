import RecordQuery.Proofs.ParserFaults
import RecordQuery.Proofs.ParserRuns
import RecordQuery.Proofs.TokenCuts
import RecordQuery.Proofs.WiderLimits

/-!
# Where no filter goes on

A fault of a filter is reported at the first token that nothing can mend. What stands before it
can be completed to a filter: each state of the parser tells what to write next, and after that
only parentheses are left to close. No filter begins with what ends in that token, whatever the
limits are.
-/

namespace RecordQuery

open Outcome Text
open QueryError (Exceeds)

namespace Parser

/-- Under some limits, a filter begins with the text and a space. -/
def Continues (text : String) : Prop :=
  ∃ (limits : Limits) (more : String) (e : Expr Predicate),
    parse limits (text ++ " " ++ more) = .ok e

/-- Under no limits does a filter begin with the text, if it ends there or a blank follows. -/
def Stuck (text : String) : Prop :=
  ∀ (limits : Limits) (rest : String) (e : Expr Predicate),
    (∀ c ∈ rest.toList.head?, isBlank c = true) → parse limits (text ++ rest) ≠ .ok e

variable {limits : Limits} {s s' : State} {t : Token} {ts us : List Token} {fault : ParseError}

/-! ## Completion -/

/-- What to write next, up to the end of a predicate. -/
def completion : Expecting → String
  | .term => "a $nn"
  | .operator _ => "$nn"
  | .compared _ _ | .matched _ _ | .values _ => "1"
  | .listValue _ _ _ => "1 )"
  | .listEnd _ _ _ => ")"
  | .connective _ => ""

/-- What the next predicate demands beside what has been read. -/
def State.demand (s : State) : Demand where
  predicates := s.predicates + 1
  depth := 0
  listValues := s.expecting.listed + 1

open Lexed (Consists)

/-- What is written next is read to the end of a predicate. -/
theorem exists_completion (s : State) (position : Nat) :
    ∃ ts, Consists position (completion s.expecting).toList ts ∧
      ∀ limits : Limits, limits.Allow s.demand → ∃ s' e,
        run limits s ts = .ok s' ∧ s'.expecting = .connective e ∧ s'.groups = s.groups := by
  obtain ⟨expecting, pending, groups, predicates⟩ := s
  have hvalue : Consists 0 "1".toList [⟨.number, ['1'], false, 0⟩] := by decide +kernel
  cases expecting with
  | term =>
    have htext : Consists 0 "a $nn".toList
        [⟨.name, ['a'], false, 0⟩, ⟨.operator .notNull, "$nn".toList, false, 2⟩] := by
      decide +kernel
    refine ⟨_, htext.at position, ?_⟩
    intro limits hallow
    exact ⟨_, _, run_cons (step_name rfl rfl hallow.predicates)
      (run_cons (step_operator rfl rfl) run_nil), rfl, rfl⟩
  | operator field =>
    have htext : Consists 0 "$nn".toList [⟨.operator .notNull, "$nn".toList, false, 0⟩] := by
      decide +kernel
    refine ⟨_, htext.at position, ?_⟩
    intro limits _
    exact ⟨_, _, run_cons (step_operator rfl rfl) run_nil, rfl, rfl⟩
  | compared field c =>
    refine ⟨_, hvalue.at position, ?_⟩
    intro limits _
    exact ⟨_, _, run_cons (step_compared rfl (.number rfl)) run_nil, rfl, rfl⟩
  | matched field place =>
    refine ⟨_, hvalue.at position, ?_⟩
    intro limits _
    exact ⟨_, _, run_cons (step_matched rfl (.number rfl)) run_nil, rfl, rfl⟩
  | values field =>
    refine ⟨_, hvalue.at position, ?_⟩
    intro limits _
    exact ⟨_, _, run_cons (step_singleValue rfl (.number rfl)) run_nil, rfl, rfl⟩
  | listValue field opened read =>
    have htext : Consists 0 "1 )".toList
        [⟨.number, ['1'], false, 0⟩, ⟨.rightParen, [')'], false, 2⟩] := by
      decide +kernel
    refine ⟨_, htext.at position, ?_⟩
    intro limits hallow
    exact ⟨_, _, run_cons (step_listValue rfl (.number rfl) hallow.listValues)
      (run_cons (step_closesList rfl rfl) run_nil), rfl, rfl⟩
  | listEnd field opened read =>
    have htext : Consists 0 ")".toList [⟨.rightParen, [')'], false, 0⟩] := by decide +kernel
    refine ⟨_, htext.at position, ?_⟩
    intro limits _
    exact ⟨_, _, run_cons (step_closesList rfl rfl) run_nil, rfl, rfl⟩
  | connective e =>
    refine ⟨[], Lexed.consists_nil, ?_⟩
    intro limits _
    exact ⟨_, e, run_nil, rfl, rfl⟩

/-- The parentheses that are open can be closed. -/
theorem exists_closing (n position : Nat) :
    ∃ ts, Consists position (List.replicate n ')') ts ∧
      ∀ (limits : Limits) (s : State) (e : Expr Predicate), s.expecting = .connective e →
        s.groups.length = n → ∃ s' e',
          run limits s ts = .ok s' ∧ s'.expecting = .connective e' ∧ s'.groups = [] := by
  induction n generalizing position with
  | zero =>
    refine ⟨[], Lexed.consists_nil, ?_⟩
    intro limits s e hs hn
    exact ⟨s, e, run_nil, hs, List.eq_nil_of_length_eq_zero hn⟩
  | succ n ih =>
    obtain ⟨ts, hts, hclose⟩ := ih (position + 1)
    refine ⟨⟨.rightParen, [')'], false, position⟩ :: ts, .mark rfl hts, ?_⟩
    intro limits s e hs hn
    obtain ⟨group, groups, hgroups⟩ := List.exists_cons_of_length_eq_add_one hn
    have hshut := step_rightParen limits hs (t := ⟨.rightParen, [')'], false, position⟩) rfl hgroups
    rw [hgroups] at hn
    obtain ⟨s', e', hrun, hs', hnil⟩ := hclose limits
      { s with expecting := .connective (s.pending.close e), pending := group.outside, groups } _
      rfl (Nat.succ.inj hn)
    exact ⟨s', e', run_cons hshut hrun, hs', hnil⟩

theorem parse_of_consists {text : String} (h : Consists 0 text.toList ts) (limits : Limits) :
    parse limits text = Lexed.parse limits (byteLength text.toList) ⟨ts, none⟩ :=
  congrArg (Lexed.parse limits _) h

/-- What has been read can be completed. -/
theorem continues_of_run {text : String} (h : Consists 0 text.toList ts)
    (hrun : run limits .start ts = .ok s) : Continues text := by
  obtain ⟨us, hus, hcomplete⟩ := exists_completion s (byteLength text.toList + 1)
  obtain ⟨vs, hvs, hclose⟩ := exists_closing s.groups.length
    (byteLength text.toList + 1 + byteLength (completion s.expecting).toList + 1)
  let wide := limits.roomFor s.demand
  obtain ⟨s₁, e₁, hrun₁, he₁, hgroups₁⟩ := hcomplete wide (limits.roomFor_allow s.demand)
  obtain ⟨s₂, e₂, hrun₂, he₂, hgroups₂⟩ := hclose wide s₁ e₁ he₁ (by rw [hgroups₁])
  have hwide : run wide .start ts = .ok s :=
    (run_within (limits.max_le_join_left _) .start ts).eq_ok hrun
  have hall : run wide .start (ts ++ (us ++ vs)) = .ok s₂ :=
    run_append hwide (run_append hrun₁ hrun₂)
  -- a parser that has taken no token still expects a term
  have hne : (ts ++ (us ++ vs)).isEmpty = false := by
    rw [List.isEmpty_eq_false_iff]
    intro hnil
    rw [hnil] at hall
    cases hall
    cases he₂
  let more := completion s.expecting ++ " " ++ String.ofList (List.replicate s.groups.length ')')
  have htext : Consists 0 (text ++ " " ++ more).toList (ts ++ (us ++ vs)) := by
    have hspaced := hus.appendSpace hvs
    rw [← Nat.zero_add (byteLength text.toList)] at hspaced
    simpa [more] using h.appendSpace hspaced
  refine ⟨wide, more, s₂.pending.close e₂, ?_⟩
  rw [parse_of_consists htext]
  refine bind_eq_ok.mpr ⟨s₂, hall, ?_⟩
  simp [hne, finish, he₂, hgroups₂]

/-! ## Texts that nothing completes -/

/-- What follows a blank does not matter to the tokens in front of it. -/
theorem stuck_of_step {text : String} (h : Consists 0 text.toList (ts ++ [t]))
    (hrun : run limits .start ts = .ok s) (hstep : step limits s t = .error (.parse fault)) :
    Stuck text := by
  intro limits' rest e hrest hparse
  have hdetached : Detached rest.toList := fun c hc => mem_separators_of_isBlank (hrest c hc)
  have hlexed := h.ofChars_append hdetached
  rw [← String.toList_append] at hlexed
  obtain ⟨s₁, hall, -⟩ := bind_eq_ok.mp hparse
  rw [Lexed.ofText, hlexed] at hall
  obtain ⟨s₂, htoken, -⟩ := run_append_eq_ok.mp hall
  have hfault : run limits .start (ts ++ [t]) = .error (.parse fault) := by
    rw [run, List.foldlM_append]
    exact bind_eq_error.mpr (.inr ⟨s, hrun, bind_eq_error.mpr (.inl hstep)⟩)
  -- both would have to hold under the higher of the limits
  have hok := (run_within (limits.max_le_join_right limits') .start (ts ++ [t])).eq_ok htoken
  have herror := (run_within (limits.max_le_join_left limits') .start (ts ++ [t])).eq_error hfault
    (by simp [Exceeds])
  cases hok.symm.trans herror

/-! ## The fault of a text -/

/-- A text is at fault at a token, or it is all tokens and ends too early. -/
theorem fault_of_parse {text : String} (h : parse limits text = .error (.parse fault)) :
    (∃ us t vs s, (Lexed.ofText text).tokens = us ++ t :: vs ∧ run limits .start us = .ok s ∧
      step limits s t = .error (.parse fault)) ∨
    (∃ ts s, Consists 0 text.toList ts ∧ run limits .start ts = .ok s ∧
      fault.AtEnd (byteLength text.toList)) := by
  rcases bind_eq_error.mp h with hrun | ⟨s, hrun, h⟩
  · exact .inl (exists_of_run_error hrun)
  · right
    split at h
    · cases h
    · rename_i hfailure
      refine ⟨_, s, congrArg (Lexed.mk _) hfailure, hrun, ?_⟩
      split at h
      · cases h
        trivial
      · obtain ⟨fault, he, hend⟩ := finish_error h
        cases he
        exact hend

/-- **Faults are reported at the first token that nothing mends**: what stands in front of it
begins a filter, and what ends with it begins none. A text that ends too early begins one. -/
theorem continues_or_stuck_of_parse {text : String}
    (h : parse limits text = .error (.parse fault)) :
    (fault.AtEnd (byteLength text.toList) → Continues text) ∧
      (¬ fault.AtEnd (byteLength text.toList) → ∃ (front behind : List Char) (t : Token),
        t ∈ (Lexed.ofText text).tokens ∧ t.position = fault.position ∧
        text.toList = front ++ (t.spelling ++ behind) ∧ byteLength front = t.position ∧
        Continues (String.ofList front) ∧ Stuck (String.ofList (front ++ t.spelling))) := by
  rcases fault_of_parse h with ⟨us, t, vs, s, htokens, hrun, hstep⟩ | ⟨ts, s, htext, hrun, hend⟩
  · have hmem : t ∈ (Lexed.ofText text).tokens := by
      rw [htokens]
      exact List.mem_append_right _ (List.mem_cons_self ..)
    obtain ⟨hposition, hnot⟩ : fault.AtToken t := by
      rcases step_error hstep with ⟨fault, he, hat⟩ | hfull
      · cases he
        exact hat
      · cases hfull
    have hlt := Lexed.position_lt 0 text.toList t hmem
    rw [Nat.zero_add] at hlt
    refine ⟨fun hend => absurd hend (hnot _ hlt), fun _ => ?_⟩
    obtain ⟨front, behind, htext, hfront, hus, hboth⟩ := Lexed.exists_cut htokens
    rw [Nat.zero_add] at hfront
    rw [← String.toList_ofList (l := front)] at hus
    rw [← String.toList_ofList (l := front ++ t.spelling)] at hboth
    exact ⟨front, behind, t, hmem, hposition.symm, htext, hfront.symm, continues_of_run hus hrun,
      stuck_of_step hboth hrun hstep⟩
  · exact ⟨fun _ => continues_of_run htext hrun, fun hnot => absurd hend hnot⟩

/-- A word where the group has to end or go on, and a list that lacks a value. -/
theorem continues_or_stuck_of_parse_group :
    let text := "(a $in (1, 2) b"
    parse {} text = .error (.parse ⟨14, .unexpectedInGroup⟩) ∧
      (∃ (front behind : List Char) (t : Token), t.position = 14 ∧
        text.toList = front ++ (t.spelling ++ behind) ∧ byteLength front = t.position ∧
        Continues (String.ofList front) ∧ Stuck (String.ofList (front ++ t.spelling))) ∧
      parse {} "(a $in (1," = .error (.parse ⟨10, .missingValue .isIn⟩) ∧
      Continues "(a $in (1," := by
  intro text
  have hword : parse {} text = .error (.parse ⟨14, .unexpectedInGroup⟩) := by decide +kernel
  have hend : parse {} "(a $in (1," = .error (.parse ⟨10, .missingValue .isIn⟩) := by
    decide +kernel
  obtain ⟨front, behind, t, -, hposition, hfault⟩ :=
    (continues_or_stuck_of_parse hword).2 (fun hend => hend)
  exact ⟨hword, ⟨front, behind, t, hposition, hfault⟩, hend,
    (continues_or_stuck_of_parse hend).1 trivial⟩

end Parser

end RecordQuery
