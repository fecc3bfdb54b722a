import Mathlib.Data.List.Induction
import RecordQuery.Proofs.Declaration
import RecordQuery.Proofs.OrderSegments

/-!
# Order texts

What an order text asks for is told segment by segment: a segment asks for an entry, or there is
a fault in it. Sort keys are made for the entries in the order of the segments, and the first
fault is the one that is reported. A segment by itself decides which of the two it is, but for
fields that were named before it.
-/

namespace RecordQuery

open Outcome Text

/-- The error is about a name that is no field to sort by. -/
def QueryError.Unresolved (err : QueryError) : Prop :=
  ∃ name, err = .unknownField name ∨ err = .fieldNotOrderable name

namespace Order

/-- A field to sort by, and the direction. -/
structure Entry where
  field : Field
  direction : Direction

def Entry.key (e : Entry) : SortKey :=
  ⟨e.field.column, e.direction⟩

/-- The segment asks for a field of the record type that results can be sorted by. -/
structure Asks (r : RecordType) (cs : List Char) (e : Entry) : Prop where
  spelled : ∃ s, Segment.Spelled cs s ∧ s.name = e.field.name ∧ s.Means e.direction
  declared : e.field ∈ r.fields
  orderable : e.field.orderable = true

/-- Each segment asks for one entry, and no two of them for the same field. -/
structure AskedBy (r : RecordType) (ss : List (List Char)) (es : List Entry) : Prop where
  each : List.Forall₂ (Asks r) ss es
  once : es.Pairwise fun e e' => e.field.name ≠ e'.field.name

/-- What is at fault with a segment: there is nothing in it, or its direction is none, or its
name is no field to sort by, or the name was `taken` before. -/
inductive Fault (r : RecordType) (index : Nat) (taken : List String) (cs : List Char) :
    QueryError → Prop where
  | empty (blanks : Blanks cs) : Fault r index taken cs (.emptyOrderSegment index)
  | direction {s : Segment} {word : List Char} (spelled : Segment.Spelled cs s)
      (written : s.direction = some word) (meaningless : ∀ direction, ¬ s.Means direction) :
      Fault r index taken cs (.invalidDirection s.name (String.ofList word))
  | unknown {s : Segment} {direction : Direction} (spelled : Segment.Spelled cs s)
      (means : s.Means direction) (undeclared : ∀ f ∈ r.fields, f.name ≠ s.name) :
      Fault r index taken cs (.unknownField s.name)
  | notOrderable {s : Segment} {direction : Direction} {f : Field}
      (spelled : Segment.Spelled cs s) (means : s.Means direction) (declared : f ∈ r.fields)
      (named : f.name = s.name) (unordered : f.orderable = false) :
      Fault r index taken cs (.fieldNotOrderable s.name)
  | duplicate {s : Segment} {e : Entry} (spelled : Segment.Spelled cs s) (asks : Asks r cs e)
      (named : e.field.name = s.name) (again : s.name ∈ taken) :
      Fault r index taken cs (.duplicateOrderField s.name)

variable {d : RecordDeclaration} {r : RecordType} {strict : Bool} {index : Nat}
  {taken : List String} {cs : List Char} {ss : List (List Char)} {e : Entry} {err : QueryError}

/-! ## One segment -/

theorem Segment.field?_eq_some_iff (hr : d.resolve = .ok r) {s : Segment} {f : Field} :
    s.field? r = some f ↔ f ∈ r.fields ∧ f.name = s.name ∧ f.orderable = true := by
  rw [Segment.field?, Option.filter_eq_some_iff, RecordType.field?_eq_some_iff hr, and_assoc]

/-- A segment asks for an entry whose name is free, or there is a fault in it. -/
theorem asks_or_fault (hr : d.resolve = .ok r) (index : Nat) (taken : List String)
    (cs : List Char) :
    (∃ e, Asks r cs e ∧ e.field.name ∉ taken) ∨ ∃ err, Fault r index taken cs err := by
  by_cases hblanks : Blanks cs
  · exact .inr ⟨_, .empty hblanks⟩
  obtain ⟨s, hs⟩ := Segment.exists_spelled hblanks
  by_cases hmeans : ∃ direction, s.Means direction
  · obtain ⟨direction, hmeans⟩ := hmeans
    cases hf : r.field? s.name with
    | none => exact .inr ⟨_, .unknown hs hmeans (RecordType.field?_eq_none_iff.mp hf)⟩
    | some f =>
      obtain ⟨hmem, hname⟩ := (RecordType.field?_eq_some_iff hr).mp hf
      cases horderable : f.orderable with
      | false => exact .inr ⟨_, .notOrderable hs hmeans hmem hname horderable⟩
      | true =>
        have hasks : Asks r cs ⟨f, direction⟩ := ⟨⟨s, hs, hname.symm, hmeans⟩, hmem, horderable⟩
        by_cases htaken : s.name ∈ taken
        · exact .inr ⟨_, .duplicate hs hasks hname htaken⟩
        · exact .inl ⟨_, hasks, by rwa [hname]⟩
  · -- only a direction that is written can be none
    cases hwritten : s.direction with
    | none => exact absurd ⟨_, .omitted hwritten⟩ hmeans
    | some word => exact .inr ⟨_, .direction hs hwritten (not_exists.mp hmeans)⟩

theorem Segment.field?_of_undeclared {s : Segment} (h : ∀ f ∈ r.fields, f.name ≠ s.name) :
    s.field? r = none ∧ s.nameError r = .unknownField s.name := by
  have hfield : r.field? s.name = none := RecordType.field?_eq_none_iff.mpr h
  simp [Segment.field?, nameError, hfield]

theorem Segment.field?_of_unordered (hr : d.resolve = .ok r) {s : Segment} {f : Field}
    (hmem : f ∈ r.fields) (hname : f.name = s.name) (h : f.orderable = false) :
    s.field? r = none ∧ s.nameError r = .fieldNotOrderable s.name := by
  have hfield : r.field? s.name = some f := (RecordType.field?_eq_some_iff hr).mpr ⟨hmem, hname⟩
  simp [Segment.field?, nameError, hfield, h]

/-- What becomes of a segment with a direction is a matter of its name. -/
theorem keys_cons_of_means {s : Segment} {direction : Direction} (hs : Segment.Spelled cs s)
    (hmeans : s.Means direction) : keys r strict index taken (cs :: ss) =
      match s.field? r with
      | some f =>
        if f.name ∈ taken then .error (.duplicateOrderField s.name)
        else (keys r strict (index + 1) (f.name :: taken) ss).map (⟨f.column, direction⟩ :: ·)
      | none =>
        if strict then .error (s.nameError r) else keys r strict (index + 1) taken ss := by
  rw [keys, Segment.ofChars?_of_spelled hs]
  simp only [Segment.resolveDirection_eq_ok_iff.mpr hmeans]
  cases s.field? r with
  | none => cases strict <;> rfl
  | some f =>
    simp only [List.contains_eq_mem, decide_eq_true_eq]
    by_cases hf : f.name ∈ taken
    · simp only [hf, if_true]
      rfl
    · simp only [hf, if_false]
      cases keys r strict (index + 1) (f.name :: taken) ss <;> rfl

theorem keys_cons_of_asks (hr : d.resolve = .ok r) (h : Asks r cs e)
    (hfree : e.field.name ∉ taken) : keys r strict index taken (cs :: ss) =
      (keys r strict (index + 1) (e.field.name :: taken) ss).map (e.key :: ·) := by
  obtain ⟨⟨s, hs, hname, hmeans⟩, hmem, horderable⟩ := h
  have hfield := (Segment.field?_eq_some_iff hr).mpr ⟨hmem, hname.symm, horderable⟩
  rw [keys_cons_of_means hs hmeans, hfield]
  exact if_neg hfree

/-- A fault is reported, unless segments may be passed over and the fault is in the name. -/
theorem keys_cons_of_fault (hr : d.resolve = .ok r) (h : Fault r index taken cs err)
    (hstrict : strict = true ∨ ¬ err.Unresolved) :
    keys r strict index taken (cs :: ss) = .error err := by
  cases h with
  | empty blanks => rw [keys, Segment.ofChars?_of_blanks blanks]
  | direction spelled written meaningless =>
    rw [keys, Segment.ofChars?_of_spelled spelled]
    simp only [Segment.resolveDirection_of_not_means written meaningless]
    rfl
  | unknown spelled means undeclared =>
    have hstrict : strict = true := hstrict.resolve_right fun h => h ⟨_, .inl rfl⟩
    obtain ⟨hfield, herror⟩ := Segment.field?_of_undeclared undeclared
    rw [keys_cons_of_means spelled means, hfield, ← herror]
    exact if_pos hstrict
  | notOrderable spelled means declared named unordered =>
    have hstrict : strict = true := hstrict.resolve_right fun h => h ⟨_, .inr rfl⟩
    obtain ⟨hfield, herror⟩ := Segment.field?_of_unordered hr declared named unordered
    rw [keys_cons_of_means spelled means, hfield, ← herror]
    exact if_pos hstrict
  | duplicate spelled asks named again =>
    obtain ⟨⟨s', hs', hname, hmeans⟩, hmem, horderable⟩ := asks
    obtain rfl := hs'.unique spelled
    have hfield := (Segment.field?_eq_some_iff hr).mpr ⟨hmem, named, horderable⟩
    rw [keys_cons_of_means spelled hmeans, hfield]
    exact if_pos (by rwa [named])

/-- A segment is passed over if its name is no field to sort by, and nothing else is at fault. -/
theorem keys_cons_of_unresolved (hr : d.resolve = .ok r) (h : Fault r index taken cs err)
    (herr : err.Unresolved) :
    keys r false index taken (cs :: ss) = keys r false (index + 1) taken ss := by
  obtain ⟨name, herr⟩ := herr
  cases h with
  | unknown spelled means undeclared =>
    obtain ⟨hfield, -⟩ := Segment.field?_of_undeclared undeclared
    rw [keys_cons_of_means spelled means, hfield]
    rfl
  | notOrderable spelled means declared named unordered =>
    obtain ⟨hfield, -⟩ := Segment.field?_of_unordered hr declared named unordered
    rw [keys_cons_of_means spelled means, hfield]
    rfl
  | empty | direction | duplicate => rcases herr with herr | herr <;> cases herr

/-! ## All segments, none passed over -/

theorem askedBy_cons {es : List Entry} : AskedBy r (cs :: ss) (e :: es) ↔
    Asks r cs e ∧ (∀ e' ∈ es, e.field.name ≠ e'.field.name) ∧ AskedBy r ss es := by
  constructor
  · rintro ⟨each, once⟩
    obtain ⟨hfirst, hothers⟩ := List.forall₂_cons.mp each
    obtain ⟨hname, honce⟩ := List.pairwise_cons.mp once
    exact ⟨hfirst, hname, hothers, honce⟩
  · rintro ⟨hfirst, hname, hothers, honce⟩
    exact ⟨.cons hfirst hothers, List.pairwise_cons.mpr ⟨hname, honce⟩⟩

/-- Segments that ask for entries have their sort keys in front of all others. -/
theorem keys_append_of_askedBy (hr : d.resolve = .ok r) {es : List Entry} (h : AskedBy r ss es)
    (hfree : ∀ e ∈ es, e.field.name ∉ taken) (after : List (List Char)) :
    keys r strict index taken (ss ++ after) =
      (keys r strict (index + ss.length) ((es.map (·.field.name)).reverse ++ taken) after).map
        (es.map Entry.key ++ ·) := by
  induction ss generalizing es index taken with
  | nil =>
    cases h.each
    cases hafter : keys r strict index taken after <;> simp [hafter, Except.map]
  | cons cs ss ih =>
    cases h.each with
    | @cons _ e _ es _ _ =>
      obtain ⟨hfirst, hname, hothers⟩ := askedBy_cons.mp h
      obtain ⟨hefree, hfree⟩ := List.forall_mem_cons.mp hfree
      have hfree' : ∀ e' ∈ es, e'.field.name ∉ e.field.name :: taken := by
        intro e' he'
        rw [List.mem_cons, not_or]
        exact ⟨Ne.symm (hname e' he'), hfree e' he'⟩
      have hindex : index + (cs :: ss).length = index + 1 + ss.length := by
        rw [List.length_cons]
        omega
      have htaken : ((e :: es).map (·.field.name)).reverse ++ taken =
          (es.map (·.field.name)).reverse ++ e.field.name :: taken := by simp
      rw [List.cons_append, keys_cons_of_asks hr hfirst hefree, ih hothers hfree', hindex, htaken]
      -- one key after the other, or all at once
      cases keys r strict (index + 1 + ss.length)
        ((es.map (·.field.name)).reverse ++ e.field.name :: taken) after <;> rfl

/-- Where a fault is, only names in use before it matter. -/
theorem Fault.congr {taken' : List String} (h : Fault r index taken cs err)
    (htaken : ∀ name, name ∈ taken → name ∈ taken') : Fault r index taken' cs err := by
  cases h with
  | empty blanks => exact .empty blanks
  | direction spelled written meaningless => exact .direction spelled written meaningless
  | unknown spelled means undeclared => exact .unknown spelled means undeclared
  | notOrderable spelled means declared named unordered =>
    exact .notOrderable spelled means declared named unordered
  | duplicate spelled asks named again => exact .duplicate spelled asks named (htaken _ again)

/-- The segments are refused for the first fault in them: all before it ask for entries. -/
def RefusedFor (r : RecordType) (ss : List (List Char)) (err : QueryError) : Prop :=
  ∃ before cs after es, ss = before ++ cs :: after ∧ AskedBy r before es ∧
    Fault r before.length (es.map (·.field.name)) cs err

theorem AskedBy.concat {es : List Entry} (h : AskedBy r ss es) (hasks : Asks r cs e)
    (hfree : e.field.name ∉ es.map (·.field.name)) : AskedBy r (ss ++ [cs]) (es ++ [e]) where
  each := List.rel_append h.each (.cons hasks .nil)
  once := by
    refine List.pairwise_append.mpr ⟨h.once, List.pairwise_singleton .., ?_⟩
    rintro e' he' e'' he'' heq
    rw [List.mem_singleton.mp he''] at heq
    exact hfree (List.mem_map.mpr ⟨e', he', heq⟩)

/-- All segments ask for entries, or one of them has the first fault. -/
theorem askedBy_or_refusedFor (hr : d.resolve = .ok r) (ss : List (List Char)) :
    (∃ es, AskedBy r ss es) ∨ ∃ err, RefusedFor r ss err := by
  induction ss using List.reverseRecOn with
  | nil => exact .inl ⟨[], .nil, .nil⟩
  | append_singleton ss cs ih =>
    rcases ih with ⟨es, hes⟩ | ⟨err, before, cs', after, es, rfl, hes, hfault⟩
    · rcases asks_or_fault hr ss.length (es.map (·.field.name)) cs with
        ⟨e, hasks, hfree⟩ | ⟨err, hfault⟩
      · exact .inl ⟨es ++ [e], hes.concat hasks hfree⟩
      · exact .inr ⟨err, ss, cs, [], es, rfl, hes, hfault⟩
    · -- nothing behind a fault is looked at
      refine .inr ⟨err, before, cs', after ++ [cs], es, ?_, hes, hfault⟩
      rw [List.append_assoc, List.cons_append]

theorem keys_of_askedBy (hr : d.resolve = .ok r) {es : List Entry} (h : AskedBy r ss es) :
    keys r strict 0 [] ss = .ok (es.map Entry.key) := by
  have hfree : ∀ e ∈ es, e.field.name ∉ [] := fun _ _ => List.not_mem_nil
  have hkeys : keys r strict 0 [] (ss ++ []) = (Except.ok []).map (es.map Entry.key ++ ·) :=
    keys_append_of_askedBy hr h hfree []
  simpa [Except.map] using hkeys

theorem keys_of_refusedFor (hr : d.resolve = .ok r) (h : RefusedFor r ss err)
    (hstrict : strict = true ∨ ¬ err.Unresolved) : keys r strict 0 [] ss = .error err := by
  obtain ⟨before, cs, after, es, rfl, hes, hfault⟩ := h
  have hfault' : Fault r (0 + before.length) ((es.map (·.field.name)).reverse ++ []) cs err := by
    rw [Nat.zero_add]
    exact hfault.congr fun name hname => by simpa using hname
  rw [keys_append_of_askedBy hr hes (fun _ _ => List.not_mem_nil),
    keys_cons_of_fault hr hfault' hstrict]
  rfl

theorem keys_eq_ok_iff (hr : d.resolve = .ok r) {ks : List SortKey} :
    keys r true 0 [] ss = .ok ks ↔ ∃ es, AskedBy r ss es ∧ ks = es.map Entry.key := by
  constructor
  · intro h
    rcases askedBy_or_refusedFor hr ss with ⟨es, hes⟩ | ⟨err, hfault⟩
    · cases h.symm.trans (keys_of_askedBy hr hes)
      exact ⟨es, hes, rfl⟩
    · cases h.symm.trans (keys_of_refusedFor hr hfault (.inl rfl))
  · rintro ⟨es, hes, rfl⟩
    exact keys_of_askedBy hr hes

theorem keys_eq_error_iff (hr : d.resolve = .ok r) :
    keys r true 0 [] ss = .error err ↔ RefusedFor r ss err := by
  constructor
  · intro h
    rcases askedBy_or_refusedFor hr ss with ⟨es, hes⟩ | ⟨err', hfault⟩
    · cases h.symm.trans (keys_of_askedBy hr hes)
    · cases h.symm.trans (keys_of_refusedFor hr hfault (.inl rfl))
      exact hfault
  · intro h
    exact keys_of_refusedFor hr h (.inl rfl)

/-! ## Order texts -/

theorem compile_of_le {limits : Limits} {text : String}
    (h : (text.toList.splitOn ',').length ≤ limits.orderFields) :
    compile r limits strict text = keys r strict 0 [] (text.toList.splitOn ',') := by
  rw [compile, segments_eq_splitOn]
  exact if_neg (Nat.not_lt.mpr h)

theorem compile_of_lt {limits : Limits} {text : String}
    (h : limits.orderFields < (text.toList.splitOn ',').length) :
    compile r limits strict text = .error (.limitExceeded .orderFields limits.orderFields) := by
  rw [compile, segments_eq_splitOn]
  exact if_pos h

/-- **An order text compiles if and only if it is well formed**: its segments, no more than the
limit allows, ask for different fields to sort by, and each has its sort key. Otherwise the limit
refuses it, or the first fault in its segments does. -/
theorem compile_strict_iff (hr : d.resolve = .ok r) (limits : Limits) (text : String) :
    let ss := text.toList.splitOn ','
    (∀ ks, compile r limits true text = .ok ks ↔
      ss.length ≤ limits.orderFields ∧ ∃ es, AskedBy r ss es ∧ ks = es.map Entry.key) ∧
    ∀ err, compile r limits true text = .error err ↔
      limits.orderFields < ss.length ∧ err = .limitExceeded .orderFields limits.orderFields ∨
        ss.length ≤ limits.orderFields ∧ RefusedFor r ss err := by
  intro ss
  rcases Nat.lt_or_ge limits.orderFields ss.length with hlt | hle
  · have hnot : ¬ ss.length ≤ limits.orderFields := Nat.not_le.mpr hlt
    rw [compile_of_lt hlt]
    exact ⟨fun ks => by simp [hnot], fun err => by simp [hlt, hnot, eq_comm]⟩
  · have hnot : ¬ limits.orderFields < ss.length := Nat.not_lt.mpr hle
    rw [compile_of_le hle]
    exact ⟨fun ks => by simp [hle, keys_eq_ok_iff hr, ss],
      fun err => by simp [hle, hnot, keys_eq_error_iff hr, ss]⟩

/-- Blanks around all parts and a direction in mixed case; and a field that is named twice, before
a direction that is none. -/
theorem compile_strict_iff_blanks :
    let d : RecordDeclaration :=
      { name := "user", qualifier := some "u",
        fields := [{ name := "name", type := .string, orderable := true },
          { name := "age", type := .integer, orderable := true }] }
    let name : Field := ⟨"name", "u.name", .string, .allFor .string, true⟩
    let age : Field := ⟨"age", "u.age", .integer, .allFor .integer, true⟩
    let r : RecordType := ⟨"user", none, none, [name, age]⟩
    let ks : List SortKey := [⟨"u.age", .descending⟩, ⟨"u.name", .ascending⟩]
    let twice := "age,name desc,age,name up"
    d.resolve = .ok r ∧
      (∃ es, AskedBy r (" age\u00a0\tDesC ,name".toList.splitOn ',') es ∧ es.map Entry.key = ks) ∧
      RefusedFor r (twice.toList.splitOn ',') (.duplicateOrderField "age") := by
  intro d name age r ks twice
  have hr : d.resolve = .ok r := by decide +kernel
  have hkeys : compile r {} true " age\u00a0\tDesC ,name" = .ok ks := by decide +kernel
  have hfault : compile r {} true twice = .error (.duplicateOrderField "age") := by decide +kernel
  obtain ⟨-, es, hes, hes'⟩ := ((compile_strict_iff hr {} _).1 _).mp hkeys
  refine ⟨hr, ⟨es, hes, hes'.symm⟩, ?_⟩
  rcases ((compile_strict_iff hr {} _).2 _).mp hfault with ⟨-, h⟩ | ⟨-, h⟩
  · cases h
  · exact h

end Order

end RecordQuery
