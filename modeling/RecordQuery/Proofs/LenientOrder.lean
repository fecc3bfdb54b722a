import RecordQuery.Proofs.StrictOrder

/-!
# Passing over names

Without strictness, segments whose name is no field to sort by are passed over. That is all the
difference it makes: an order text compiles to what it compiles to without these segments, and
it is refused for whatever else is at fault, in the segments that are passed over as well.
-/

namespace RecordQuery.Order

open Outcome Text

/-- The name of the segment is that of a field to sort by. -/
def Resolvable (r : RecordType) (cs : List Char) : Prop :=
  ∃ s, Segment.Spelled cs s ∧ ∃ f ∈ r.fields, f.name = s.name ∧ f.orderable = true

instance (r : RecordType) : DecidablePred (Resolvable r) := fun cs =>
  decidable_of_iff (∃ s ∈ (Segment.ofChars? cs).toList, ∃ f ∈ r.fields,
    f.name = s.name ∧ f.orderable = true) (by
      simp only [Resolvable, Option.mem_toList, Segment.ofChars?_eq_some_iff])

variable {d : RecordDeclaration} {r : RecordType} {index : Nat} {taken : List String}
  {cs : List Char} {ss : List (List Char)} {e : Entry} {err : QueryError}

theorem Asks.resolvable (h : Asks r cs e) : Resolvable r cs := by
  obtain ⟨s, hs, hname, -⟩ := h.spelled
  exact ⟨s, hs, e.field, h.declared, hname.symm, h.orderable⟩

/-- A name at fault is no field to sort by. -/
theorem Fault.not_resolvable (hr : d.resolve = .ok r) (h : Fault r index taken cs err)
    (herr : err.Unresolved) : ¬ Resolvable r cs := by
  obtain ⟨name, herr⟩ := herr
  rintro ⟨s', hs', f', hmem', hname', horderable'⟩
  cases h with
  | unknown spelled means undeclared =>
    obtain rfl := spelled.unique hs'
    exact undeclared f' hmem' hname'
  | notOrderable spelled means declared named unordered =>
    obtain rfl := spelled.unique hs'
    obtain rfl := RecordType.eq_of_name_eq hr declared hmem' (named.trans hname'.symm)
    cases unordered.symm.trans horderable'
  | empty | direction | duplicate => rcases herr with herr | herr <;> cases herr

/-! ## Segments -/

/-- Passing over names changes nothing, unless a name is at fault. -/
theorem keys_sameUnless (hr : d.resolve = .ok r) (index : Nat) (taken : List String)
    (ss : List (List Char)) :
    SameUnless QueryError.Unresolved (keys r true index taken ss)
      (keys r false index taken ss) := by
  induction ss generalizing index taken with
  | nil => exact .refl _ _
  | cons cs ss ih =>
    rcases asks_or_fault hr index taken cs with ⟨e, hasks, hfree⟩ | ⟨err, hfault⟩
    · rw [keys_cons_of_asks hr hasks hfree, keys_cons_of_asks hr hasks hfree]
      exact (ih (index + 1) (e.field.name :: taken)).map (e.key :: ·)
    · rw [keys_cons_of_fault hr hfault (.inl rfl)]
      by_cases herr : err.Unresolved
      · exact .of_error herr _
      · rw [keys_cons_of_fault hr hfault (.inr herr)]
        exact .refl _ _

/-- No name is at fault where names are passed over. -/
theorem not_unresolved_of_keys (hr : d.resolve = .ok r)
    (h : keys r false index taken ss = .error err) : ¬ err.Unresolved := by
  induction ss generalizing index taken with
  | nil => cases h
  | cons cs ss ih =>
    rcases asks_or_fault hr index taken cs with ⟨e, hasks, hfree⟩ | ⟨err', hfault⟩
    · rw [keys_cons_of_asks hr hasks hfree, map_eq_error] at h
      exact ih h
    · by_cases herr : err'.Unresolved
      · rw [keys_cons_of_unresolved hr hfault herr] at h
        exact ih h
      · cases h.symm.trans (keys_cons_of_fault hr hfault (.inr herr))
        exact herr

/-- What is passed over can as well be left out. Places are told in errors only. -/
theorem keys_filter_resolvable (hr : d.resolve = .ok r) {ks : List SortKey}
    (h : keys r false index taken ss = .ok ks) (index' : Nat) :
    keys r true index' taken (ss.filter (Resolvable r ·)) = .ok ks := by
  induction ss generalizing index index' taken ks with
  | nil => exact h
  | cons cs ss ih =>
    rcases asks_or_fault hr index taken cs with ⟨e, hasks, hfree⟩ | ⟨err, hfault⟩
    · rw [keys_cons_of_asks hr hasks hfree] at h
      obtain ⟨ks, hks, rfl⟩ := map_eq_ok.mp h
      rw [List.filter_cons_of_pos (by simpa using hasks.resolvable),
        keys_cons_of_asks hr hasks hfree]
      exact map_eq_ok.mpr ⟨ks, ih hks (index' + 1), rfl⟩
    · by_cases herr : err.Unresolved
      · rw [keys_cons_of_unresolved hr hfault herr] at h
        rw [List.filter_cons_of_neg (by simpa using hfault.not_resolvable hr herr)]
        exact ih h index'
      · cases h.symm.trans (keys_cons_of_fault hr hfault (.inr herr))

/-! ## Order texts -/

theorem compile_sameUnless (hr : d.resolve = .ok r) (limits : Limits) (text : String) :
    SameUnless QueryError.Unresolved (compile r limits true text)
      (compile r limits false text) := by
  rcases Nat.lt_or_ge limits.orderFields (text.toList.splitOn ',').length with hlt | hle
  · rw [compile_of_lt hlt, compile_of_lt hlt]
    exact .refl _ _
  · rw [compile_of_le hle, compile_of_le hle]
    exact keys_sameUnless hr 0 [] _

theorem not_unresolved_of_compile (hr : d.resolve = .ok r) {limits : Limits} {text : String}
    (h : compile r limits false text = .error err) : ¬ err.Unresolved := by
  rcases Nat.lt_or_ge limits.orderFields (text.toList.splitOn ',').length with hlt | hle
  · rw [compile_of_lt hlt] at h
    cases h
    rintro ⟨name, h | h⟩ <;> cases h
  · rw [compile_of_le hle] at h
    exact not_unresolved_of_keys hr h

/-- The segments that name fields to sort by compile to the same keys. -/
theorem compile_filter_resolvable (hr : d.resolve = .ok r) {limits : Limits} {text : String}
    {ks : List SortKey} (h : compile r limits false text = .ok ks) :
    let resolved := (text.toList.splitOn ',').filter (Resolvable r ·)
    (resolved = [] → ks = []) ∧ (resolved ≠ [] →
      compile r limits true (String.ofList ([','].intercalate resolved)) = .ok ks) := by
  intro resolved
  rcases Nat.lt_or_ge limits.orderFields (text.toList.splitOn ',').length with hlt | hle
  · rw [compile_of_lt hlt] at h
    cases h
  · rw [compile_of_le hle] at h
    have hkeys : keys r true 0 [] resolved = .ok ks := keys_filter_resolvable hr h 0
    constructor
    · intro hnil
      rw [hnil] at hkeys
      cases hkeys
      rfl
    · intro hne
      have hcommas : ∀ s ∈ resolved, ',' ∉ s := fun s hs =>
        comma_not_mem_of_mem_splitOn (List.mem_of_mem_filter hs)
      have hsplit : (String.ofList ([','].intercalate resolved)).toList.splitOn ',' = resolved := by
        rw [String.toList_ofList, List.splitOn_intercalate ',' hcommas hne]
      have hcount : resolved.length ≤ limits.orderFields :=
        Nat.le_trans (List.length_filter_le _ _) hle
      rw [compile_of_le (by rwa [hsplit]), hsplit]
      exact hkeys

/-- **Passing over names is leaving out their segments**: what compiles strictly compiles to the
same keys, what is at fault in any other way than by a name is refused for the same fault, and
what compiles by passing over segments compiles strictly without them. No name is at fault then,
and whatever is refused is refused strictly too. -/
theorem compile_lenient (hr : d.resolve = .ok r) (limits : Limits) (text : String) :
    let resolved := (text.toList.splitOn ',').filter (Resolvable r ·)
    (∀ ks, compile r limits true text = .ok ks → compile r limits false text = .ok ks) ∧
    (∀ err, compile r limits true text = .error err → ¬ err.Unresolved →
      compile r limits false text = .error err) ∧
    (∀ ks, compile r limits false text = .ok ks → (resolved = [] → ks = []) ∧ (resolved ≠ [] →
      compile r limits true (String.ofList ([','].intercalate resolved)) = .ok ks)) ∧
    ∀ err, compile r limits false text = .error err →
      ¬ err.Unresolved ∧ ∃ err', compile r limits true text = .error err' := by
  intro resolved
  have hsame := compile_sameUnless hr limits text
  refine ⟨fun ks => hsame.eq_ok, fun err => hsame.eq_error,
    fun ks => compile_filter_resolvable hr, fun err h => ⟨not_unresolved_of_compile hr h, ?_⟩⟩
  cases hstrict : compile r limits true text with
  | error err' => exact ⟨err', rfl⟩
  | ok ks => cases h.symm.trans (hsame.eq_ok hstrict)

/-- A name that nobody declared, and one that cannot be sorted by, are passed over. -/
theorem compile_lenient_mixed :
    let d : RecordDeclaration :=
      { name := "user", qualifier := some "u",
        fields := [{ name := "name", type := .string },
          { name := "age", type := .integer, orderable := true }] }
    let r : RecordType := ⟨"user", none, none, [⟨"name", "u.name", .string, .allFor .string, false⟩,
      ⟨"age", "u.age", .integer, .allFor .integer, true⟩]⟩
    let ks : List SortKey := [⟨"u.age", .descending⟩]
    let text := "nick, age desc ,name asc"
    d.resolve = .ok r ∧ compile r {} true text = .error (.unknownField "nick") ∧
      compile r {} false text = .ok ks ∧ compile r {} true " age desc " = .ok ks := by
  intro d r ks text
  have hr : d.resolve = .ok r := by decide +kernel
  have hstrict : compile r {} true text = .error (.unknownField "nick") := by decide +kernel
  have hlenient : compile r {} false text = .ok ks := by decide +kernel
  have hresolved : (text.toList.splitOn ',').filter (Resolvable r ·) = [" age desc ".toList] := by
    decide +kernel
  obtain ⟨-, hleft⟩ := (compile_lenient hr {} _).2.2.1 ks hlenient
  rw [hresolved] at hleft
  exact ⟨hr, hstrict, hlenient, hleft (List.cons_ne_nil _ _)⟩

end RecordQuery.Order
