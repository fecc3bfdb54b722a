import RecordQuery.Proofs.StatementRuns
import RecordQuery.Proofs.TargetAgreement

/-!
# Runs of a bound query

A bound query is written in pieces: a text, or the next placeholder together with the
value that is bound to it. The parts of a query can be applied in any order and any
number, and a condition may have more placeholders than values, or fewer. Each part
only appends its pieces, and whatever the run, its placeholders are those of the bound
values, in their order and numbered without a gap.
-/

namespace RecordQuery

/-! ## Pieces -/

/-- What is appended to a bound query at a time. -/
inductive Piece where
  | text (s : String)
  /-- The placeholder with this number, and the value that is bound to it. -/
  | placeholder (number : Nat) (value : Datum)
deriving DecidableEq, Repr

namespace Piece

def sql (d : Dialect) : Piece → String
  | .text s => s
  | .placeholder number _ => d.placeholder number

def text? : Piece → Option String
  | .text s => some s
  | .placeholder _ _ => none

def number? : Piece → Option Nat
  | .text _ => none
  | .placeholder number _ => some number

def value? : Piece → Option Datum
  | .text _ => none
  | .placeholder _ value => some value

/-- The SQL of several pieces. -/
def sqlOf (d : Dialect) (ps : List Piece) : String :=
  String.join (ps.map (sql d))

/-- All that several pieces have apart from placeholders. -/
def textOf (ps : List Piece) : String :=
  String.join (ps.filterMap text?)

/-- The numbers of the placeholders, from left to right. -/
def numbers (ps : List Piece) : List Nat :=
  ps.filterMap number?

/-- The values of the placeholders, from left to right. -/
def values (ps : List Piece) : List Datum :=
  ps.filterMap value?

/-- The numbers go on from those of the `bound` values before, without a gap. -/
def Consecutive (bound : Nat) (ps : List Piece) : Prop :=
  numbers ps = List.range' (bound + 1) (values ps).length

/-- The parts of a text that was cut at its placeholders, each with a value in front
while there is one. -/
def fill (bound : Nat) : List Datum → List (List Char) → List Piece
  | _, [] => []
  | [], part :: parts => .text (String.ofList part) :: fill bound [] parts
  | v :: vs, part :: parts =>
    .placeholder (bound + 1) v :: .text (String.ofList part) :: fill (bound + 1) vs parts

/-- A fragment, cut at its placeholders, with these values for them. -/
def ofFragment (bound : Nat) (vs : List Datum) (cs : List Char) : List Piece :=
  match cs.splitOn '?' with
  | [] => []
  | part :: parts => .text (String.ofList part) :: fill bound vs parts

variable {bound : Nat} {vs : List Datum} {cs : List Char} {ps ps' : List Piece}

theorem values_append (ps ps' : List Piece) : values (ps ++ ps') = values ps ++ values ps' :=
  List.filterMap_append

theorem numbers_append (ps ps' : List Piece) : numbers (ps ++ ps') = numbers ps ++ numbers ps' :=
  List.filterMap_append

theorem textOf_text_cons (s : String) (ps : List Piece) : textOf (.text s :: ps) = s ++ textOf ps :=
  String.join_cons

theorem textOf_placeholder_cons (number : Nat) (v : Datum) (ps : List Piece) :
    textOf (.placeholder number v :: ps) = textOf ps :=
  rfl

theorem Consecutive.text_cons (h : Consecutive bound ps) (s : String) :
    Consecutive bound (.text s :: ps) :=
  h

theorem Consecutive.placeholder_cons (h : Consecutive (bound + 1) ps) (v : Datum) :
    Consecutive bound (.placeholder (bound + 1) v :: ps) := by
  have h : numbers ps = List.range' (bound + 1 + 1) (values ps).length := h
  change (bound + 1) :: numbers ps = List.range' (bound + 1) ((values ps).length + 1)
  rw [List.range'_succ, h]

theorem Consecutive.append (h : Consecutive bound ps)
    (h' : Consecutive (bound + (values ps).length) ps') : Consecutive bound (ps ++ ps') := by
  have h' : numbers ps' = List.range' (bound + (values ps).length + 1) (values ps').length := h'
  rw [Consecutive, numbers_append, values_append, List.length_append, h, h', Nat.add_right_comm,
    List.range'_append_1]

/-! ## The pieces of a fragment -/

theorem ofFragment_nil (bound : Nat) (vs : List Datum) : ofFragment bound vs [] = [.text ""] := by
  rw [ofFragment, List.splitOn_nil]
  rfl

theorem splitOn_mark (cs : List Char) : ('?' :: cs).splitOn '?' = [] :: cs.splitOn '?' := by
  rw [List.splitOn_cons_eq_if_modifyHead, if_pos (beq_self_eq_true '?')]

/-- A placeholder takes the first value. -/
theorem ofFragment_mark_cons (bound : Nat) (v : Datum) (vs : List Datum) (cs : List Char) :
    ofFragment bound (v :: vs) ('?' :: cs) =
      .text "" :: .placeholder (bound + 1) v :: ofFragment (bound + 1) vs cs := by
  obtain ⟨part, parts, h⟩ := List.exists_cons_of_ne_nil (List.splitOn_ne_nil '?' cs)
  rw [ofFragment, ofFragment, splitOn_mark, h]
  rfl

/-- Without a value a placeholder is left out. -/
theorem ofFragment_mark_nil (bound : Nat) (cs : List Char) :
    ofFragment bound [] ('?' :: cs) = .text "" :: ofFragment bound [] cs := by
  obtain ⟨part, parts, h⟩ := List.exists_cons_of_ne_nil (List.splitOn_ne_nil '?' cs)
  rw [ofFragment, ofFragment, splitOn_mark, h]
  rfl

/-- Any other character belongs to the part at the front. -/
theorem exists_ofFragment_cons {c : Char} (hc : c ≠ '?') (bound : Nat) (vs : List Datum)
    (cs : List Char) : ∃ part ps, ofFragment bound vs cs = .text (String.ofList part) :: ps ∧
      ofFragment bound vs (c :: cs) = .text (String.ofList (c :: part)) :: ps := by
  obtain ⟨part, parts, h⟩ := List.exists_cons_of_ne_nil (List.splitOn_ne_nil '?' cs)
  have hcons : (c :: cs).splitOn '?' = (c :: part) :: parts := by
    rw [List.splitOn_cons_eq_if_modifyHead, if_neg (by simpa using hc), h]
    rfl
  refine ⟨part, fill bound vs parts, ?_, ?_⟩
  · rw [ofFragment, h]
  · rw [ofFragment, hcons]

/-- The cases of a fragment that is read together with the values for it. -/
@[elab_as_elim]
theorem fragment_induction {motive : List Datum → List Char → Prop}
    (nil : ∀ vs, motive vs [])
    (filled : ∀ v vs cs, motive vs cs → motive (v :: vs) ('?' :: cs))
    (unfilled : ∀ cs, motive [] cs → motive [] ('?' :: cs))
    (other : ∀ c vs cs, c ≠ '?' → motive vs cs → motive vs (c :: cs))
    (vs : List Datum) (cs : List Char) : motive vs cs := by
  induction cs generalizing vs with
  | nil => exact nil vs
  | cons c cs ih =>
    by_cases hc : c = '?'
    · subst hc
      cases vs with
      | nil => exact unfilled cs (ih [])
      | cons v vs => exact filled v vs cs (ih vs)
    · exact other c vs cs hc (ih vs)

theorem consecutive_ofFragment (bound : Nat) (vs : List Datum) (cs : List Char) :
    Consecutive bound (ofFragment bound vs cs) := by
  induction vs, cs using fragment_induction generalizing bound with
  | nil vs =>
    rw [ofFragment_nil]
    rfl
  | filled v vs cs ih =>
    rw [ofFragment_mark_cons]
    exact ((ih (bound + 1)).placeholder_cons v).text_cons ""
  | unfilled cs ih =>
    rw [ofFragment_mark_nil]
    exact (ih bound).text_cons ""
  | other c vs cs hc ih =>
    obtain ⟨part, ps, htail, hcons⟩ := exists_ofFragment_cons hc bound vs cs
    have ih := ih bound
    rw [htail] at ih
    rw [hcons]
    exact ih

/-- The values of a fragment are as many of the first ones as it has placeholders for. -/
theorem values_ofFragment (bound : Nat) (vs : List Datum) (cs : List Char) :
    values (ofFragment bound vs cs) = vs.take (cs.count '?') := by
  induction vs, cs using fragment_induction generalizing bound with
  | nil vs =>
    rw [ofFragment_nil]
    rfl
  | filled v vs cs ih =>
    rw [ofFragment_mark_cons, List.count_cons_self, List.take_succ_cons]
    exact congrArg (v :: ·) (ih (bound + 1))
  | unfilled cs ih =>
    rw [ofFragment_mark_nil, List.take_nil]
    exact (ih bound).trans List.take_nil
  | other c vs cs hc ih =>
    obtain ⟨part, ps, htail, hcons⟩ := exists_ofFragment_cons hc bound vs cs
    have ih := ih bound
    rw [htail] at ih
    rw [hcons, List.count_cons_of_ne hc]
    exact ih

/-- The text of a fragment is kept, apart from its placeholders. -/
theorem textOf_ofFragment (bound : Nat) (vs : List Datum) (cs : List Char) :
    textOf (ofFragment bound vs cs) = String.ofList (cs.filter (· ≠ '?')) := by
  induction vs, cs using fragment_induction generalizing bound with
  | nil vs =>
    rw [ofFragment_nil]
    rfl
  | filled v vs cs ih =>
    rw [ofFragment_mark_cons, textOf_text_cons, textOf_placeholder_cons, String.empty_append, ih,
      List.filter_cons_of_neg (by simp)]
  | unfilled cs ih =>
    rw [ofFragment_mark_nil, textOf_text_cons, String.empty_append, ih,
      List.filter_cons_of_neg (by simp)]
  | other c vs cs hc ih =>
    obtain ⟨part, ps, htail, hcons⟩ := exists_ofFragment_cons hc bound vs cs
    rw [hcons, textOf_text_cons, String.ofList_cons, String.append_assoc, ← textOf_text_cons,
      ← htail, ih, ← String.ofList_cons, List.filter_cons_of_pos (by simpa using hc)]

/-- A placeholder stands where it stood in the fragment, and has the number and the value
of the placeholders up to it. -/
theorem exists_ofFragment_split (bound : Nat) {v : Datum} {left : List Char} (right : List Char)
    (h : vs[left.count '?']? = some v) :
    ∃ before after, ofFragment bound vs (left ++ '?' :: right) =
        before ++ .placeholder (bound + left.count '?' + 1) v :: after ∧
      textOf before = String.ofList (left.filter (· ≠ '?')) ∧
      textOf after = String.ofList (right.filter (· ≠ '?')) := by
  induction vs, left using fragment_induction generalizing bound with
  | nil vs =>
    obtain ⟨vs, rfl⟩ : ∃ tail, vs = v :: tail := by
      cases vs with
      | nil => cases h
      | cons w vs =>
        cases h
        exact ⟨vs, rfl⟩
    refine ⟨[.text ""], ofFragment (bound + 1) vs right, ?_, rfl, textOf_ofFragment _ _ _⟩
    rw [List.nil_append, ofFragment_mark_cons]
    rfl
  | filled w vs left ih =>
    rw [List.count_cons_self, List.getElem?_cons_succ] at h
    obtain ⟨before, after, hsplit, hbefore, hafter⟩ := ih (bound + 1) h
    refine ⟨.text "" :: .placeholder (bound + 1) w :: before, after, ?_, ?_, hafter⟩
    · have hnumber : bound + (left.count '?' + 1) + 1 = bound + 1 + left.count '?' + 1 := by omega
      rw [List.cons_append, ofFragment_mark_cons, hsplit, List.count_cons_self, hnumber]
      rfl
    · rw [textOf_text_cons, textOf_placeholder_cons, String.empty_append, hbefore,
        List.filter_cons_of_neg (by simp)]
  | unfilled left ih => cases h
  | other c vs left hc ih =>
    rw [List.count_cons_of_ne hc] at h ⊢
    obtain ⟨before, after, hsplit, hbefore, hafter⟩ := ih bound h
    obtain ⟨part, ps, htail, hcons⟩ :=
      exists_ofFragment_cons hc bound vs (left ++ '?' :: right)
    -- the part that the character belongs to is text, so it stands before the placeholder
    cases before with
    | nil =>
      rw [htail] at hsplit
      cases hsplit
    | cons p before =>
      rw [htail, List.cons_append, List.cons.injEq] at hsplit
      obtain ⟨rfl, hps⟩ := hsplit
      refine ⟨.text (String.ofList (c :: part)) :: before, after, ?_, ?_, hafter⟩
      · rw [List.cons_append, hcons, hps]
        rfl
      · rw [textOf_text_cons] at hbefore ⊢
        rw [List.filter_cons_of_pos (by simpa using hc), String.ofList_cons, String.ofList_cons,
          String.append_assoc, hbefore]

/-- What stands for a condition behind `bound` values. -/
structure Fills (bound : Nat) (c : Condition) (ps : List Piece) : Prop where
  /-- There are as many placeholders as in the fragment, unless the values run out. -/
  count : (numbers ps).length = min c.placeholderCount c.values.length
  /-- They take the first values, in their order. -/
  values : values ps = c.values.take (min c.placeholderCount c.values.length)
  /-- The rest of the fragment is kept. -/
  text : textOf ps = String.ofList (c.fragment.toList.filter (· ≠ '?'))
  /-- Each placeholder that has a value stays in its place. -/
  place : ∀ left right v, c.fragment.toList = left ++ '?' :: right →
    c.values[left.count '?']? = some v →
      ∃ before after, ps = before ++ .placeholder (bound + left.count '?' + 1) v :: after ∧
        textOf before = String.ofList (left.filter (· ≠ '?')) ∧
        textOf after = String.ofList (right.filter (· ≠ '?'))

theorem fills_ofFragment (bound : Nat) (c : Condition) :
    Fills bound c (ofFragment bound c.values c.fragment.toList) := by
  have hvalues : Piece.values (ofFragment bound c.values c.fragment.toList) =
      c.values.take c.placeholderCount := values_ofFragment bound c.values c.fragment.toList
  refine ⟨?_, ?_, textOf_ofFragment bound c.values c.fragment.toList, ?_⟩
  · rw [consecutive_ofFragment bound c.values c.fragment.toList, List.length_range', hvalues,
      List.length_take]
  · rw [hvalues, ← List.take_take, List.take_length]
  · intro left right v hfragment hv
    rw [hfragment]
    exact exists_ofFragment_split bound right hv

end Piece

/-! ## What is written -/

namespace BoundQuery

/-- One piece more. The value of a placeholder is bound; its number is the next one,
whatever the piece says. -/
def write (q : BoundQuery) : Piece → BoundQuery
  | .text s => q.push s
  | .placeholder _ v => q.pushBind v

def writeAll (q : BoundQuery) (ps : List Piece) : BoundQuery :=
  ps.foldl write q

variable {q q' q'' : BoundQuery} {ps ps' : List Piece}

theorem writeAll_append (q : BoundQuery) (ps ps' : List Piece) :
    q.writeAll (ps ++ ps') = (q.writeAll ps).writeAll ps' :=
  List.foldl_append

/-- Whether there is a condition makes no difference to what is written. -/
theorem writeAll_hasCondition (q : BoundQuery) (b : Bool) (ps : List Piece) :
    { q with hasCondition := b }.writeAll ps = { q.writeAll ps with hasCondition := b } := by
  induction ps generalizing q with
  | nil => rfl
  | cons p ps ih =>
    cases p with
    | text s => exact ih (q.push s)
    | placeholder number v => exact ih (q.pushBind v)

theorem dialect_writeAll (q : BoundQuery) (ps : List Piece) :
    (q.writeAll ps).dialect = q.dialect := by
  induction ps generalizing q with
  | nil => rfl
  | cons p ps ih => cases p <;> exact ih _

theorem binds_writeAll (q : BoundQuery) (ps : List Piece) :
    (q.writeAll ps).binds = q.binds ++ Piece.values ps := by
  induction ps generalizing q with
  | nil => exact (List.append_nil q.binds).symm
  | cons p ps ih =>
    cases p with
    | text s => exact ih (q.push s)
    | placeholder number v =>
      refine (ih (q.pushBind v)).trans ?_
      rw [pushBind, List.append_assoc]
      rfl

/-- Pieces whose numbers are the next ones are written with these numbers. -/
theorem text_writeAll (h : Piece.Consecutive q.binds.length ps) :
    (q.writeAll ps).text = q.text ++ Piece.sqlOf q.dialect ps := by
  induction ps generalizing q with
  | nil => exact String.append_empty.symm
  | cons p ps ih =>
    rw [Piece.sqlOf, List.map_cons, String.join_cons, ← String.append_assoc]
    cases p with
    | text s => exact ih (q := q.push s) h
    | placeholder number v =>
      have h : number :: Piece.numbers ps =
          List.range' (q.binds.length + 1) ((Piece.values ps).length + 1) := h
      rw [List.range'_succ, List.cons.injEq] at h
      obtain ⟨rfl, htail⟩ := h
      have hlength : (q.pushBind v).binds.length = q.binds.length + 1 := by simp [pushBind]
      have htail : Piece.Consecutive (q.pushBind v).binds.length ps := by
        rw [hlength]
        exact htail
      exact ih htail

/-- From `q` to `q'` these pieces are written. -/
structure Writes (q q' : BoundQuery) (ps : List Piece) : Prop where
  /-- Nothing else is done than to append them one by one. -/
  pieces : q' = { q.writeAll ps with hasCondition := q'.hasCondition }
  /-- What was there stays in front of the new text, and of the new values. -/
  text : q'.text = q.text ++ Piece.sqlOf q.dialect ps
  binds : q'.binds = q.binds ++ Piece.values ps
  /-- There are as many placeholders as values, with the numbers that come next. -/
  numbers : Piece.numbers ps = List.range' (q.binds.length + 1) (Piece.values ps).length

theorem writes_of_consecutive (h : Piece.Consecutive q.binds.length ps) (b : Bool) :
    q.Writes { q.writeAll ps with hasCondition := b } ps where
  pieces := rfl
  text := text_writeAll h
  binds := binds_writeAll q ps
  numbers := h

theorem Writes.dialect (h : q.Writes q' ps) : q'.dialect = q.dialect := by
  rw [h.pieces]
  exact dialect_writeAll q ps

theorem Writes.trans (h : q.Writes q' ps) (h' : q'.Writes q'' ps') :
    q.Writes q'' (ps ++ ps') := by
  have hbound : q'.binds.length = q.binds.length + (Piece.values ps).length := by
    rw [h.binds, List.length_append]
  have hnumbers' : Piece.Consecutive (q.binds.length + (Piece.values ps).length) ps' := by
    rw [← hbound]
    exact h'.numbers
  have hnumbers : Piece.Consecutive q.binds.length ps := h.numbers
  have hpieces : q'' = { q.writeAll (ps ++ ps') with hasCondition := q''.hasCondition } := by
    conv_lhs => rw [h'.pieces, h.pieces, writeAll_hasCondition]
    rw [writeAll_append]
  rw [hpieces]
  exact writes_of_consecutive (hnumbers.append hnumbers') _

/-- A fragment is written part by part. -/
theorem pushFragment_eq_writeAll (q : BoundQuery) (vs : List Datum) (cs : List Char) :
    q.pushFragment vs cs = q.writeAll (Piece.ofFragment q.binds.length vs cs) := by
  have hempty (q : BoundQuery) : q.push "" = q := by simp [push]
  induction vs, cs using Piece.fragment_induction generalizing q with
  | nil vs =>
    rw [Piece.ofFragment_nil]
    exact (hempty q).symm
  | filled v vs cs ih =>
    have hbound : (q.pushBind v).binds.length = q.binds.length + 1 := by simp [pushBind]
    rw [pushFragment, if_pos rfl, Piece.ofFragment_mark_cons]
    change (q.pushBind v).pushFragment vs cs = ((q.push "").pushBind v).writeAll _
    rw [hempty, ih, hbound]
  | unfilled cs ih =>
    rw [pushFragment, if_pos rfl, Piece.ofFragment_mark_nil]
    change q.pushFragment [] cs = (q.push "").writeAll _
    rw [hempty, ih]
  | other c vs cs hc ih =>
    -- the character is pushed alone, and then the part that it begins
    obtain ⟨part, ps, htail, hcons⟩ := Piece.exists_ofFragment_cons hc q.binds.length vs cs
    have hpush : (q.push (String.singleton c)).push (String.ofList part) =
        q.push (String.ofList (c :: part)) := by
      rw [push, push, push, String.ofList_cons, String.append_assoc]
    rw [pushFragment_cons_of_ne q vs hc, ih, hcons]
    change (q.push (String.singleton c)).writeAll (Piece.ofFragment q.binds.length vs cs) = _
    rw [htail]
    change ((q.push (String.singleton c)).push (String.ofList part)).writeAll ps = _
    rw [hpush]
    rfl

end BoundQuery

/-! ## The pieces of a run -/

namespace QueryStep

/-- What a step writes behind `bound` values. The first condition follows WHERE. -/
def pieces (d : Dialect) (bound : Nat) (first : Bool) : QueryStep → List Piece
  | .condition c =>
    .text (if first then " WHERE " else " AND ") ::
      Piece.ofFragment bound c.values c.fragment.toList
  | .order keys => [.text (" ORDER BY " ++ d.sortKeys keys)]
  | .page p =>
    [.text " LIMIT ", .placeholder (bound + 1) (BoundQuery.rowCount p.size.toNat),
      .text " OFFSET ", .placeholder (bound + 2) (BoundQuery.rowCount p.offset)]

/-- What steps write one after the other. -/
def piecesOf (d : Dialect) (bound : Nat) (first : Bool) : List QueryStep → List Piece
  | [] => []
  | s :: steps =>
    s.pieces d bound first ++
      piecesOf d (bound + (Piece.values (s.pieces d bound first)).length)
        (first && s.condition?.isNone) steps

theorem consecutive_pieces (d : Dialect) (bound : Nat) (first : Bool) (s : QueryStep) :
    Piece.Consecutive bound (s.pieces d bound first) := by
  cases s with
  | condition c => exact (Piece.consecutive_ofFragment bound c.values _).text_cons _
  | order keys => rfl
  | page p => rfl

end QueryStep

namespace BoundQuery

theorem step_eq_writeAll (q : BoundQuery) (s : QueryStep) :
    QueryTarget.step q s =
      { q.writeAll (s.pieces q.dialect q.binds.length (!q.hasCondition)) with
        hasCondition := q.hasCondition || s.condition?.isSome } := by
  cases s with
  | condition c =>
    have hlead : (if q.hasCondition then " AND " else " WHERE ") =
        if !q.hasCondition then " WHERE " else " AND " := by
      cases q.hasCondition <;> rfl
    change pushFragment _ c.values c.fragment.toList = _
    rw [pushFragment_eq_writeAll, hlead, writeAll_hasCondition, QueryStep.condition?,
      Option.isSome_some, Bool.or_true]
    rfl
  | order keys =>
    change q.addOrder keys = _
    simp [addOrder, QueryStep.pieces, QueryStep.condition?, writeAll, write, push]
  | page p =>
    change q.addPage p = _
    simp [addPage, QueryStep.pieces, QueryStep.condition?, writeAll, write, push, pushBind]

theorem hasCondition_step (q : BoundQuery) (s : QueryStep) :
    (QueryTarget.step q s).hasCondition = (q.hasCondition || s.condition?.isSome) := by
  rw [step_eq_writeAll]

/-- A step writes its pieces. -/
theorem writes_step (q : BoundQuery) (s : QueryStep) :
    q.Writes (QueryTarget.step q s) (s.pieces q.dialect q.binds.length (!q.hasCondition)) := by
  rw [step_eq_writeAll]
  exact writes_of_consecutive (QueryStep.consecutive_pieces q.dialect _ _ s) _

/-- So do several steps. -/
theorem writes_run (q : BoundQuery) (steps : List QueryStep) :
    q.Writes (QueryTarget.run q steps)
      (QueryStep.piecesOf q.dialect q.binds.length (!q.hasCondition) steps) := by
  induction steps generalizing q with
  | nil => exact writes_of_consecutive (show Piece.Consecutive _ [] from rfl) q.hasCondition
  | cons s steps ih =>
    have hstep := q.writes_step s
    have hrun := ih (QueryTarget.step q s)
    have hfirst : (!(QueryTarget.step q s).hasCondition) =
        (!q.hasCondition && s.condition?.isNone) := by
      rw [hasCondition_step, Bool.not_or, Option.not_isSome]
    rw [hstep.dialect, hstep.binds, List.length_append, hfirst] at hrun
    exact hstep.trans hrun

/-- A run leaves a condition if it has one. -/
theorem hasCondition_run (q : BoundQuery) (steps : List QueryStep) :
    (QueryTarget.run q steps).hasCondition =
      (q.hasCondition || !(QueryStep.conditions steps).isEmpty) := by
  induction steps using List.reverseRecOn with
  | nil => exact (Bool.or_false q.hasCondition).symm
  | append_singleton steps s ih =>
    rw [QueryTarget.run_concat, hasCondition_step, ih, QueryStep.conditions_concat, Bool.or_assoc]
    cases s <;> simp [QueryStep.condition?]

/-- **Text and values keep in step** over every run: what is written are the pieces of
the steps, and after each of them there are as many placeholders as bound values,
numbered in their order. A condition has as many of them as it can fill, behind WHERE
if it is the first and behind AND if not. -/
theorem writes_run_step (d : Dialect) (text : String) (binds : List Datum)
    (steps : List QueryStep) :
    let start : BoundQuery := ⟨d, text, binds, false⟩
    let q := QueryTarget.run start steps
    let first := (QueryStep.conditions steps).isEmpty
    start.Writes q (QueryStep.piecesOf d binds.length true steps) ∧
      (∀ s : QueryStep, q.Writes (QueryTarget.step q s) (s.pieces d q.binds.length first)) ∧
      ∀ c : Condition, ∃ ps, Piece.Fills q.binds.length c ps ∧
        (QueryStep.condition c).pieces d q.binds.length first =
          .text (if QueryStep.conditions steps = [] then " WHERE " else " AND ") :: ps := by
  intro start q first
  have hrun : start.Writes q (QueryStep.piecesOf d binds.length true steps) :=
    writes_run start steps
  have hfirst : (!q.hasCondition) = first := by
    rw [hasCondition_run, Bool.false_or, Bool.not_not]
  refine ⟨hrun, ?_, ?_⟩
  · intro s
    have hstep := q.writes_step s
    rw [hfirst, hrun.dialect] at hstep
    exact hstep
  · intro c
    refine ⟨_, Piece.fills_ofFragment q.binds.length c, ?_⟩
    simp only [QueryStep.pieces, first, List.isEmpty_iff]

/-- A condition that lacks a value, one that has a value too many, and a page between. -/
example :
    let q := QueryTarget.run (ofText .postgres "SELECT * FROM t") [
      .condition ⟨"a = ? OR b = ?", [.integer 1]⟩, .page ⟨1, 20⟩,
      .condition ⟨"c = ?", [.integer 2, .integer 3]⟩]
    q.text = "SELECT * FROM t WHERE a = $1 OR b =  LIMIT $2 OFFSET $3 AND c = $4" ∧
      q.binds = [.integer 1, .integer 20, .integer 0, .integer 2] := by
  decide +kernel

end BoundQuery

end RecordQuery
