import Mathlib.Data.List.Basic
import Mathlib.Data.List.TakeWhile
import RecordQuery.Order

/-!
# Segments of an order text

An order text is cut at its commas. What a segment says is told here by how it is written,
and not by how it is read: blanks may stand around it, its name holds none, and a direction
stands apart from the name. Every segment that is not blank is written in exactly one way.
-/

namespace RecordQuery

open Text

/-! ## Blanks around a text -/

namespace Text

def Blanks (cs : List Char) : Prop :=
  ∀ c ∈ cs, isBlank c = true

instance (cs : List Char) : Decidable (Blanks cs) :=
  inferInstanceAs (Decidable (∀ c ∈ cs, isBlank c = true))

/-- The text begins and ends with characters other than blanks. -/
structure Tight (cs : List Char) : Prop where
  front : ∃ c, cs.head? = some c ∧ isBlank c = false
  back : ∃ c, cs.getLast? = some c ∧ isBlank c = false

variable {cs ds : List Char}

theorem Blanks.append (hc : Blanks cs) (hd : Blanks ds) : Blanks (cs ++ ds) :=
  List.forall_mem_append.mpr ⟨hc, hd⟩

/-- Text without blanks is tight, unless it is empty. -/
theorem tight_of_solid (hne : cs ≠ []) (h : ∀ c ∈ cs, isBlank c = false) : Tight cs where
  front := ⟨cs.head hne, List.head?_eq_some_head hne, h _ (List.head_mem hne)⟩
  back := ⟨cs.getLast hne, List.getLast?_eq_some_getLast hne, h _ (List.getLast_mem hne)⟩

/-- What stands between two tight texts does not matter. -/
theorem Tight.join {between : List Char} (hc : Tight cs) (hd : Tight ds) :
    Tight (cs ++ between ++ ds) where
  front := by
    obtain ⟨c, hfront, hblank⟩ := hc.front
    exact ⟨c, by simp [List.head?_append, hfront], hblank⟩
  back := by
    obtain ⟨c, hback, hblank⟩ := hd.back
    exact ⟨c, by simp [List.getLast?_append, hback], hblank⟩

theorem Tight.dropWhile_eq (h : Tight cs) (after : List Char) :
    (cs ++ after).dropWhile isBlank = cs ++ after := by
  obtain ⟨c, hc, hblank⟩ := h.front
  obtain ⟨cs, rfl⟩ := List.head?_eq_some_iff.mp hc
  simp [hblank]

theorem Tight.reverse (h : Tight cs) : Tight cs.reverse where
  front := by simpa using h.back
  back := by simpa using h.front

/-- Trimming takes all blanks around a tight text. -/
theorem trimmed_of_tight {before after : List Char} (hbefore : Blanks before) (h : Tight cs)
    (hafter : Blanks after) : trimmed (before ++ cs ++ after) = cs := by
  have hrev : ∀ c ∈ after.reverse, isBlank c = true := fun c hc => hafter c (List.mem_reverse.mp hc)
  rw [trimmed, List.append_assoc, List.dropWhile_append_of_pos hbefore, h.dropWhile_eq,
    List.reverse_append, List.dropWhile_append_of_pos hrev]
  have hback := h.reverse.dropWhile_eq []
  rw [List.append_nil] at hback
  rw [hback, List.reverse_reverse]

theorem trimmed_of_blanks (h : Blanks cs) : trimmed cs = [] := by
  rw [trimmed, List.dropWhile_eq_nil_iff.mpr h]
  rfl

/-- The characters of a kind at the front of a text, and where they end. -/
theorem exists_span (p : Char → Bool) (cs : List Char) : ∃ front rest, cs = front ++ rest ∧
    (∀ c ∈ front, p c = true) ∧ ∀ c, rest.head? = some c → p c = false := by
  refine ⟨cs.takeWhile p, cs.dropWhile p, List.takeWhile_append_dropWhile.symm,
    fun c hc => List.mem_takeWhile_imp hc, fun c hc => ?_⟩
  have hhead := List.head?_dropWhile_not p cs
  rwa [hc] at hhead

/-- A text that is not blank is a tight text with blanks around it. -/
theorem exists_tight (h : ¬ Blanks cs) : ∃ before core after,
    cs = before ++ core ++ after ∧ Blanks before ∧ Tight core ∧ Blanks after := by
  obtain ⟨before, rest, rfl, (hbefore : Blanks before), hfront⟩ := exists_span isBlank cs
  obtain ⟨after, core, hrest, hafter, hback⟩ := exists_span isBlank rest.reverse
  have hafter' : Blanks after.reverse := fun c hc => hafter c (List.mem_reverse.mp hc)
  obtain rfl : rest = core.reverse ++ after.reverse := by
    rw [← List.reverse_append, ← hrest, List.reverse_reverse]
  have hne : core ≠ [] := by
    rintro rfl
    exact h (hbefore.append hafter')
  obtain ⟨c, hc⟩ := Option.ne_none_iff_exists'.mp (mt List.head?_eq_none_iff.mp hne)
  obtain ⟨c', hc'⟩ := Option.ne_none_iff_exists'.mp (mt List.getLast?_eq_none_iff.mp hne)
  refine ⟨before, core.reverse, after.reverse, by rw [List.append_assoc], hbefore, ⟨?_, ?_⟩,
    hafter'⟩
  · exact ⟨c', by simpa using hc', hfront c' (by simp [hc'])⟩
  · exact ⟨c, by simpa using hc, hback c hc⟩

end Text

/-- A word for one direction is none for the other. -/
theorem Direction.ofWord?_eq_some_iff {word : List Char} {direction : Direction} :
    Direction.ofWord? word = some direction ↔
      direction = .ascending ∧ sameWord word "asc".toList = true ∨
        direction = .descending ∧ sameWord word "desc".toList = true := by
  have hnotBoth (h : sameWord word "asc".toList = true) : sameWord word "desc".toList = false := by
    have hlower : word.map Char.toLower = "asc".toList := beq_iff_eq.mp h
    rw [sameWord, hlower]
    decide
  change (if sameWord word "asc".toList then some .ascending
    else if sameWord word "desc".toList then some .descending else none) = some direction ↔ _
  by_cases hasc : sameWord word "asc".toList = true
  · simp only [hasc, hnotBoth hasc, if_true]
    cases direction <;> simp
  · by_cases hdesc : sameWord word "desc".toList = true
    · simp only [hasc, hdesc, if_true]
      cases direction <;> simp
    · simp only [hasc, hdesc]
      simp

namespace Order

/-! ## Cutting at commas -/

theorem segments_eq_splitOn (cs : List Char) : segments cs = cs.splitOn ',' := by
  induction cs with
  | nil => rfl
  | cons c cs ih =>
    rw [segments, List.splitOn_cons_eq_if_modifyHead, ih]
    by_cases hc : c = ','
    · simp [hc]
    · cases h : cs.splitOn ',' with
      | nil => exact absurd h (List.splitOn_ne_nil ',' cs)
      | cons s rest => simp [hc]

/-- No segment has a comma in it. -/
theorem comma_not_mem_of_mem_splitOn {cs s : List Char} (h : s ∈ cs.splitOn ',') : ',' ∉ s := by
  induction cs generalizing s with
  | nil =>
    rw [List.splitOn_nil, List.mem_singleton] at h
    simp [h]
  | cons c cs ih =>
    rw [List.splitOn_cons_eq_if_modifyHead] at h
    by_cases hc : c = ','
    · rw [if_pos (beq_iff_eq.mpr hc)] at h
      rcases List.mem_cons.mp h with rfl | h
      · exact List.not_mem_nil
      · exact ih h
    · rw [if_neg (by simpa using hc)] at h
      obtain ⟨s', rest, hsplit⟩ := List.exists_cons_of_ne_nil (List.splitOn_ne_nil ',' cs)
      rw [hsplit] at ih h
      rcases List.mem_cons.mp h with rfl | h
      · rw [List.mem_cons, not_or]
        exact ⟨Ne.symm hc, ih List.mem_cons_self⟩
      · exact ih (List.mem_cons_of_mem s' h)

/-! ## What a segment says -/

namespace Segment

/-- The characters write the segment: a name, and the direction apart from it if there is one. -/
inductive Spelled : List Char → Segment → Prop where
  | alone {before name after : List Char} (hbefore : Blanks before) (named : name ≠ [])
      (solid : ∀ c ∈ name, isBlank c = false) (hafter : Blanks after) :
      Spelled (before ++ name ++ after) ⟨String.ofList name, none⟩
  | directed {before name between word after : List Char} (hbefore : Blanks before)
      (named : name ≠ []) (solid : ∀ c ∈ name, isBlank c = false) (apart : between ≠ [])
      (hbetween : Blanks between) (tight : Tight word) (hafter : Blanks after) :
      Spelled (before ++ (name ++ between ++ word) ++ after) ⟨String.ofList name, some word⟩

/-- The direction that a segment asks for: the word for it in any case, or none for ascending. -/
inductive Means (s : Segment) : Direction → Prop where
  | omitted (written : s.direction = none) : Means s .ascending
  | ascending {word : List Char} (written : s.direction = some word)
      (asc : sameWord word "asc".toList = true) : Means s .ascending
  | descending {word : List Char} (written : s.direction = some word)
      (desc : sameWord word "desc".toList = true) : Means s .descending

variable {cs : List Char} {s : Segment}

theorem ofChars?_of_blanks (h : Blanks cs) : ofChars? cs = none := by
  simp [ofChars?, trimmed_of_blanks h]

theorem ofChars?_of_spelled (h : Spelled cs s) : ofChars? cs = some s := by
  cases h with
  | @alone before name after hbefore named solid hafter =>
    have hsolid : ∀ c ∈ name, (!isBlank c) = true := by simpa using solid
    rw [ofChars?, trimmed_of_tight hbefore (tight_of_solid named solid) hafter,
      List.takeWhile_eq_self_iff.mpr hsolid, List.dropWhile_eq_nil_iff.mpr hsolid]
    simp [named]
  | @directed before name between word after hbefore named solid apart hbetween tight hafter =>
    obtain ⟨b, between, rfl⟩ := List.exists_cons_of_ne_nil apart
    obtain ⟨hb, hbetween⟩ := List.forall_mem_cons.mp hbetween
    have hsolid : ∀ c ∈ name, (!isBlank c) = true := by simpa using solid
    have htight : Tight (name ++ b :: between ++ word) := (tight_of_solid named solid).join tight
    have hword : trimmed (between ++ word) = word := by
      have hnil : Blanks [] := List.forall_mem_nil _
      simpa using trimmed_of_tight hbetween tight hnil
    rw [ofChars?, trimmed_of_tight hbefore htight hafter, List.append_assoc,
      List.takeWhile_append_of_pos hsolid, List.dropWhile_append_of_pos hsolid]
    simp [named, hb, hword]

/-- Characters write one segment only. -/
theorem Spelled.unique {s' : Segment} (h : Spelled cs s) (h' : Spelled cs s') : s = s' := by
  have hread := ofChars?_of_spelled h
  rw [ofChars?_of_spelled h'] at hread
  exact (Option.some.inj hread).symm

/-- A segment that is not blank is written in some way. -/
theorem exists_spelled (h : ¬ Blanks cs) : ∃ s, Spelled cs s := by
  obtain ⟨before, core, after, rfl, hbefore, hcore, hafter⟩ := exists_tight h
  obtain ⟨name, rest, rfl, hname, hrest⟩ := exists_span (fun c => !isBlank c) core
  have hsolid : ∀ c ∈ name, isBlank c = false := by simpa using hname
  have hnamed : name ≠ [] := by
    rintro rfl
    obtain ⟨c, hc, hblank⟩ := hcore.front
    simpa [hblank] using hrest c hc
  by_cases hblanks : Blanks rest
  · -- the core ends with no blank, so nothing follows the name
    obtain rfl : rest = [] := by
      obtain ⟨c, hc, hblank⟩ := hcore.back
      by_contra hne
      rw [List.getLast?_append_of_ne_nil _ hne] at hc
      cases hblank.symm.trans (hblanks c (List.mem_of_getLast? hc))
    rw [List.append_nil]
    exact ⟨_, .alone hbefore hnamed hsolid hafter⟩
  · obtain ⟨between, word, after', rfl, hbetween, hword, hafter'⟩ := exists_tight hblanks
    have hapart : between ≠ [] := by
      rintro rfl
      -- the name ends at a blank, and a direction does not begin with one
      obtain ⟨c, hc, hblank⟩ := hword.front
      simpa [hblank] using hrest c (by simp [hc])
    have htext : before ++ (name ++ (between ++ word ++ after')) ++ after =
        before ++ (name ++ between ++ word) ++ (after' ++ after) := by
      simp only [List.append_assoc]
    rw [htext]
    exact ⟨_, .directed hbefore hnamed hsolid hapart hbetween hword (hafter'.append hafter)⟩

/-- A segment is read as it is written. -/
theorem ofChars?_eq_some_iff : ofChars? cs = some s ↔ Spelled cs s := by
  refine ⟨fun h => ?_, ofChars?_of_spelled⟩
  by_cases hblank : Blanks cs
  · cases h.symm.trans (ofChars?_of_blanks hblank)
  · obtain ⟨s', hs'⟩ := exists_spelled hblank
    cases h.symm.trans (ofChars?_of_spelled hs')
    exact hs'

theorem resolveDirection_eq_ok_iff {direction : Direction} :
    s.resolveDirection = .ok direction ↔ s.Means direction := by
  unfold resolveDirection
  constructor
  · intro h
    split at h
    · rename_i hwritten
      cases h
      exact .omitted hwritten
    · rename_i word hwritten
      split at h
      · rename_i hword
        cases h
        rcases Direction.ofWord?_eq_some_iff.mp hword with ⟨rfl, hasc⟩ | ⟨rfl, hdesc⟩
        · exact .ascending hwritten hasc
        · exact .descending hwritten hdesc
      · cases h
  · intro h
    cases h with
    | omitted written => simp only [written]
    | ascending written asc =>
      simp only [written, Direction.ofWord?_eq_some_iff.mpr (.inl ⟨rfl, asc⟩)]
    | descending written desc =>
      simp only [written, Direction.ofWord?_eq_some_iff.mpr (.inr ⟨rfl, desc⟩)]

theorem resolveDirection_of_not_means {word : List Char} (written : s.direction = some word)
    (h : ∀ direction, ¬ s.Means direction) :
    s.resolveDirection = .error (.invalidDirection s.name (String.ofList word)) := by
  cases hword : Direction.ofWord? word with
  | none => simp only [resolveDirection, written, hword]
  | some direction =>
    have hs : s.resolveDirection = .ok direction := by
      simp only [resolveDirection, written, hword]
    exact absurd (resolveDirection_eq_ok_iff.mp hs) (h direction)

end Segment

end Order

end RecordQuery
