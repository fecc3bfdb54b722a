import Mathlib.Data.List.Forall2

/-!
# Outcomes of checks

A check gives a value or the first fault. Checks that are made one after the
other give a value if and only if each of them does.
-/

namespace RecordQuery.Outcome

variable {ε α β : Type}

theorem bind_eq_ok {x : Except ε α} {f : α → Except ε β} {b : β} :
    x >>= f = .ok b ↔ ∃ a, x = .ok a ∧ f a = .ok b := by
  cases x with
  | error e =>
    constructor
    · intro h
      cases h
    · rintro ⟨a, h, -⟩
      cases h
  | ok a => exact ⟨fun h => ⟨a, rfl, h⟩, fun ⟨_, rfl, h⟩ => h⟩

theorem bind_eq_error {x : Except ε α} {f : α → Except ε β} {e : ε} :
    x >>= f = .error e ↔ x = .error e ∨ ∃ a, x = .ok a ∧ f a = .error e := by
  cases x with
  | error e' =>
    constructor
    · intro h
      cases h
      exact .inl rfl
    · rintro (h | ⟨a, h, -⟩)
      · cases h
        rfl
      · cases h
  | ok a =>
    constructor
    · intro h
      exact .inr ⟨a, rfl, h⟩
    · rintro (h | ⟨b, h, hf⟩)
      · cases h
      · cases h
        exact hf

theorem map_eq_ok {x : Except ε α} {f : α → β} {b : β} :
    x.map f = .ok b ↔ ∃ a, x = .ok a ∧ f a = b := by
  cases x with
  | error e =>
    constructor
    · intro h
      cases h
    · rintro ⟨a, h, -⟩
      cases h
  | ok a => simp [Except.map]

theorem map_eq_error {x : Except ε α} {f : α → β} {e : ε} : x.map f = .error e ↔ x = .error e := by
  cases x <;> simp [Except.map]

theorem map_map {γ : Type} (x : Except ε α) (f : α → β) (g : β → γ) :
    (x.map f).map g = x.map (g ∘ f) := by
  cases x <;> rfl

/-- A check that is made only when `c` holds, before what comes next. -/
theorem when_eq_ok {c : Prop} [Decidable c] {x : Except ε PUnit} {f : PUnit → Except ε β} {b : β} :
    (if c then x >>= f else f ⟨⟩) = .ok b ↔ (c → x = .ok ⟨⟩) ∧ f ⟨⟩ = .ok b := by
  by_cases hc : c
  · rw [if_pos hc, bind_eq_ok]
    constructor
    · rintro ⟨u, hx, hf⟩
      exact ⟨fun _ => hx, hf⟩
    · rintro ⟨hx, hf⟩
      exact ⟨⟨⟩, hx hc, hf⟩
  · rw [if_neg hc]
    exact ⟨fun h => ⟨fun h' => absurd h' hc, h⟩, fun h => h.2⟩

theorem refuse_eq_ok {c : Prop} [Decidable c] {e : ε} {f : PUnit → Except ε β} {b : β} :
    (if c then (throw e : Except ε PUnit) >>= f else f ⟨⟩) = .ok b ↔ ¬ c ∧ f ⟨⟩ = .ok b := by
  rw [when_eq_ok]
  constructor
  · rintro ⟨hc, hf⟩
    refine ⟨fun h => ?_, hf⟩
    cases hc h
  · rintro ⟨hc, hf⟩
    exact ⟨fun h => absurd h hc, hf⟩

theorem when_eq_error {c : Prop} [Decidable c] {x : Except ε PUnit} {f : PUnit → Except ε β}
    {e : ε} : (if c then x >>= f else f ⟨⟩) = .error e ↔
      (c ∧ x = .error e) ∨ (c → x = .ok ⟨⟩) ∧ f ⟨⟩ = .error e := by
  by_cases hc : c
  · have hunit : (∃ u, x = .ok u ∧ f u = .error e) ↔ x = .ok ⟨⟩ ∧ f ⟨⟩ = .error e :=
      ⟨fun ⟨_, h⟩ => h, fun h => ⟨⟨⟩, h⟩⟩
    rw [if_pos hc, bind_eq_error, hunit]
    simp [hc]
  · simp [hc]

theorem refuse_eq_error {c : Prop} [Decidable c] {e e' : ε} {f : PUnit → Except ε β} :
    (if c then (throw e : Except ε PUnit) >>= f else f ⟨⟩) = .error e' ↔
      (c ∧ e = e') ∨ ¬ c ∧ f ⟨⟩ = .error e' := by
  have hthrow : (throw e : Except ε PUnit) = .error e := rfl
  rw [when_eq_error, hthrow]
  simp

/-- The outcomes are the same, unless the first is an error of the kind. -/
def SameUnless (P : ε → Prop) (x y : Except ε α) : Prop :=
  x = y ∨ ∃ e, P e ∧ x = .error e

namespace SameUnless

variable {P Q : ε → Prop} {x y : Except ε α}

theorem refl (P : ε → Prop) (x : Except ε α) : SameUnless P x x :=
  .inl rfl

theorem of_error {e : ε} (he : P e) (y : Except ε α) : SameUnless P (.error e) y :=
  .inr ⟨e, he, rfl⟩

theorem imp (h : SameUnless P x y) (hPQ : ∀ e, P e → Q e) : SameUnless Q x y := by
  rcases h with rfl | ⟨e, he, rfl⟩
  · exact refl Q x
  · exact of_error (hPQ e he) y

/-- Checks that are made one after the other. -/
theorem bind {f g : α → Except ε β} (h : SameUnless P x y) (hf : ∀ a, SameUnless P (f a) (g a)) :
    SameUnless P (x >>= f) (y >>= g) := by
  rcases h with rfl | ⟨e, he, rfl⟩
  · cases x with
    | error e => exact refl P _
    | ok a => exact hf a
  · exact of_error he _

theorem map (h : SameUnless P x y) (f : α → β) : SameUnless P (x.map f) (y.map f) := by
  rcases h with rfl | ⟨e, he, rfl⟩
  · exact refl P _
  · exact of_error he _

theorem eq_ok (h : SameUnless P x y) {a : α} (hx : x = .ok a) : y = .ok a := by
  rcases h with rfl | ⟨e, -, he⟩
  · exact hx
  · cases hx.symm.trans he

theorem eq_error (h : SameUnless P x y) {e : ε} (hx : x = .error e) (he : ¬ P e) :
    y = .error e := by
  rcases h with rfl | ⟨e', he', hx'⟩
  · exact hx
  · cases hx.symm.trans hx'
    exact absurd he' he

end SameUnless

/-- A list of checks gives a list of values, one for each of them. -/
theorem mapM_eq_ok {f : α → Except ε β} {as : List α} {bs : List β} :
    as.mapM f = .ok bs ↔ List.Forall₂ (fun a b => f a = .ok b) as bs := by
  induction as generalizing bs with
  | nil =>
    rw [List.mapM_nil, List.forall₂_nil_left_iff]
    exact ⟨fun h => by cases h; rfl, fun h => by rw [h]; rfl⟩
  | cons a as ih =>
    rw [List.mapM_cons, List.forall₂_cons_left_iff, bind_eq_ok]
    constructor
    · rintro ⟨b, hb, h⟩
      obtain ⟨cs, hcs, h⟩ := bind_eq_ok.mp h
      cases h
      exact ⟨b, cs, hb, ih.mp hcs, rfl⟩
    · rintro ⟨b, cs, hb, hcs, rfl⟩
      exact ⟨b, hb, bind_eq_ok.mpr ⟨cs, ih.mpr hcs, rfl⟩⟩

/-! ## The first fault -/

/-- The fault of the first value that does not pass the check. -/
def FirstFault (f : α → Except ε β) (as : List α) (e : ε) : Prop :=
  ∃ before a after, as = before ++ a :: after ∧ (∀ b ∈ before, ∃ v, f b = .ok v) ∧ f a = .error e

section FirstFault

variable {f : α → Except ε β} {as bs : List α} {e : ε}

theorem firstFault_nil : ¬ FirstFault f [] e := by
  rintro ⟨before, a, after, h, -⟩
  simp at h

theorem firstFault_cons {a : α} :
    FirstFault f (a :: as) e ↔ f a = .error e ∨ (∃ v, f a = .ok v) ∧ FirstFault f as e := by
  constructor
  · rintro ⟨before, b, after, h, hbefore, hb⟩
    cases before with
    | nil =>
      obtain ⟨rfl, -⟩ := List.cons.inj h
      exact .inl hb
    | cons c before =>
      obtain ⟨rfl, rfl⟩ := List.cons.inj h
      obtain ⟨hc, hbefore⟩ := List.forall_mem_cons.mp hbefore
      exact .inr ⟨hc, before, b, after, rfl, hbefore, hb⟩
  · rintro (ha | ⟨ha, before, b, after, rfl, hbefore, hb⟩)
    · exact ⟨[], a, as, rfl, nofun, ha⟩
    · exact ⟨a :: before, b, after, rfl, List.forall_mem_cons.mpr ⟨ha, hbefore⟩, hb⟩

theorem firstFault_append : FirstFault f (as ++ bs) e ↔
    FirstFault f as e ∨ (∀ a ∈ as, ∃ v, f a = .ok v) ∧ FirstFault f bs e := by
  induction as with
  | nil => simp [firstFault_nil]
  | cons a as ih =>
    rw [List.cons_append, firstFault_cons, ih, firstFault_cons, List.forall_mem_cons, and_or_left,
      or_assoc, and_assoc]

/-- All values pass if none is the first that does not. -/
theorem forall_ok_iff : (∀ a ∈ as, ∃ v, f a = .ok v) ↔ ∀ e, ¬ FirstFault f as e := by
  constructor
  · rintro h e ⟨before, a, after, rfl, -, ha⟩
    obtain ⟨v, hv⟩ := h a (List.mem_append_right _ List.mem_cons_self)
    cases ha.symm.trans hv
  · intro h
    induction as with
    | nil => exact nofun
    | cons a as ih =>
      cases ha : f a with
      | error e => exact absurd (firstFault_cons.mpr (.inl ha)) (h e)
      | ok v =>
        refine List.forall_mem_cons.mpr ⟨⟨v, ha⟩, ih fun e he => h e ?_⟩
        exact firstFault_cons.mpr (.inr ⟨⟨v, ha⟩, he⟩)

/-- What fails with the first fault only gives a value if all values pass. -/
theorem exists_ok_iff {γ : Type} {x : Except ε γ} (h : ∀ e, x = .error e ↔ FirstFault f as e) :
    (∃ c, x = .ok c) ↔ ∀ a ∈ as, ∃ v, f a = .ok v := by
  rw [forall_ok_iff]
  cases x with
  | ok c => simpa using h
  | error e => simpa using ⟨e, (h e).mp rfl⟩

theorem mapM_eq_error : as.mapM f = .error e ↔ FirstFault f as e := by
  induction as with
  | nil =>
    rw [List.mapM_nil]
    exact iff_of_false nofun firstFault_nil
  | cons a as ih =>
    rw [List.mapM_cons, bind_eq_error, firstFault_cons]
    refine or_congr_right ⟨?_, ?_⟩
    · rintro ⟨v, hv, h⟩
      rcases bind_eq_error.mp h with h | ⟨vs, -, h⟩
      · exact ⟨⟨v, hv⟩, ih.mp h⟩
      · cases h
    · rintro ⟨⟨v, hv⟩, h⟩
      exact ⟨v, hv, bind_eq_error.mpr (.inl (ih.mpr h))⟩

end FirstFault

/-- What belongs to a value of the second list is in the first. -/
theorem exists_of_mem_right {R : α → β → Prop} {as : List α} {bs : List β}
    (h : List.Forall₂ R as bs) {b : β} (hb : b ∈ bs) : ∃ a ∈ as, R a b := by
  induction h with
  | nil => cases hb
  | @cons a b' as bs hab _ ih =>
    rcases List.mem_cons.mp hb with rfl | hb
    · exact ⟨a, List.mem_cons_self, hab⟩
    · obtain ⟨a', ha', h⟩ := ih hb
      exact ⟨a', List.mem_cons_of_mem a ha', h⟩

/-- What belongs to a value of the first list is in the second. -/
theorem exists_of_mem_left {R : α → β → Prop} {as : List α} {bs : List β}
    (h : List.Forall₂ R as bs) {a : α} (ha : a ∈ as) : ∃ b ∈ bs, R a b :=
  exists_of_mem_right h.flip ha

/-- What holds between any two of a list holds as well in a list that has the same keys. -/
theorem pairwise_of_forall₂ {γ : Type} {f : α → γ} {g : β → γ} {S : γ → γ → Prop} {as : List α}
    {bs : List β} (h : List.Forall₂ (fun a b => f a = g b) as bs)
    (has : as.Pairwise fun a a' => S (f a) (f a')) : bs.Pairwise fun b b' => S (g b) (g b') := by
  have hkeys : as.map f = bs.map g := by
    rwa [← List.forall₂_eq_eq_eq, List.forall₂_map_left_iff, List.forall₂_map_right_iff]
  have hordered := List.pairwise_map.mpr has
  rw [hkeys] at hordered
  exact List.pairwise_map.mp hordered

end RecordQuery.Outcome
