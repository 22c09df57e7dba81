import PixelFont.Proofs.Text.Numeral
import PixelFont.Text.Order

/-!
How texts and lists of texts sort. Of two different ones only one comes before the other, and coming
before passes on. What two lists begin with alike does not decide between them, and of two numerals
of one length the smaller comes first, whatever follows. Main statement:
`Text.listBefore_padded_append`.
-/

set_option autoImplicit false

namespace PixelFont.Text

section Lists

variable {α : Type} [DecidableEq α] {less : α → α → Bool}

/-- What lists begin with alike does not decide between them. -/
theorem listBefore_append_left (hless : ∀ x, less x x = false) (opening xs ys : List α) :
    listBefore less (opening ++ xs) (opening ++ ys) = listBefore less xs ys := by
  induction opening with
  | nil => rfl
  | cons x opening ih => simp [listBefore, hless, ih]

/-- What follows does not matter where lists of one length differ. -/
theorem listBefore_append {xs ys : List α} (hlength : xs.length = ys.length)
    (hbefore : listBefore less xs ys = true) (rest others : List α) :
    listBefore less (xs ++ rest) (ys ++ others) = true := by
  induction xs generalizing ys with
  | nil =>
    rw [List.length_eq_zero_iff.mp hlength.symm] at hbefore
    exact absurd hbefore Bool.false_ne_true
  | cons x xs ih =>
    cases ys with
    | nil => exact absurd hlength (by simp)
    | cons y ys =>
      simp only [listBefore, List.cons_append, Bool.or_eq_true, Bool.and_eq_true] at hbefore ⊢
      exact hbefore.imp_right (And.imp_right (ih (Nat.succ.inj hlength)))

/-- Of two lists each comes before the other only if it is so for items. -/
theorem listBefore_asymm (hless : ∀ x y, less x y = true → less y x = false) {xs ys : List α}
    (hbefore : listBefore less xs ys = true) : listBefore less ys xs = false := by
  induction xs generalizing ys with
  | nil =>
    cases ys with
    | nil => exact absurd hbefore Bool.false_ne_true
    | cons y ys => rfl
  | cons x xs ih =>
    cases ys with
    | nil => exact absurd hbefore Bool.false_ne_true
    | cons y ys =>
      have hsame : ∀ x, less x x = false := fun x ↦
        Bool.eq_false_iff.mpr fun h ↦ absurd h (Bool.eq_false_iff.mp (hless x x h))
      simp only [listBefore, Bool.or_eq_true, Bool.and_eq_true, beq_iff_eq] at hbefore
      rw [listBefore, Bool.or_eq_false_iff, Bool.and_eq_false_iff, beq_eq_false_iff_ne]
      rcases hbefore with hitem | ⟨rfl, hrest⟩
      · refine ⟨hless x y hitem, .inl ?_⟩
        rintro rfl
        exact absurd hitem (Bool.eq_false_iff.mp (hsame y))
      · exact ⟨hsame x, .inr (ih hrest)⟩

/-- Coming before passes on from lists to lists as it does from items to items. -/
theorem listBefore_trans (hless : ∀ x y z, less x y = true → less y z = true → less x z = true)
    {xs ys zs : List α} (hfirst : listBefore less xs ys = true)
    (hsecond : listBefore less ys zs = true) : listBefore less xs zs = true := by
  induction xs generalizing ys zs with
  | nil =>
    cases zs with
    | nil => cases ys <;> exact absurd hsecond Bool.false_ne_true
    | cons z zs => rfl
  | cons x xs ih =>
    cases ys with
    | nil => exact absurd hfirst Bool.false_ne_true
    | cons y ys =>
      cases zs with
      | nil => exact absurd hsecond Bool.false_ne_true
      | cons z zs =>
        simp only [listBefore, Bool.or_eq_true, Bool.and_eq_true, beq_iff_eq] at hfirst hsecond ⊢
        rcases hfirst with hxy | ⟨rfl, hfirst⟩
        · rcases hsecond with hyz | ⟨rfl, -⟩
          · exact Or.inl (hless x y z hxy hyz)
          · exact Or.inl hxy
        · rcases hsecond with hxz | ⟨rfl, hsecond⟩
          · exact Or.inl hxz
          · exact Or.inr ⟨rfl, ih hfirst hsecond⟩

end Lists

theorem charBefore_irrefl (c : Char) : charBefore c c = false := by
  simp [charBefore]

/-- Of two texts only one comes before the other. -/
theorem before_asymm {text other : String} (hbefore : before text other = true) :
    before other text = false := by
  refine listBefore_asymm (fun c d hless ↦ ?_) hbefore
  simp only [charBefore, decide_eq_true_eq, decide_eq_false_iff_not] at hless ⊢
  exact Nat.lt_asymm hless

theorem before_trans {first second third : String} (hfirst : before first second = true)
    (hsecond : before second third = true) : before first third = true := by
  refine listBefore_trans (fun c d e hcd hde ↦ ?_) hfirst hsecond
  simp only [charBefore, decide_eq_true_eq] at hcd hde ⊢
  exact Nat.lt_trans hcd hde

/-- Two texts that begin alike compare as what follows. -/
theorem before_append_left (opening text other : String) :
    before (opening ++ text) (opening ++ other) = before text other := by
  simp only [before, String.toList_append]
  exact listBefore_append_left charBefore_irrefl _ _ _

/-! ### Lists of texts -/

theorem listOfTextsBefore_asymm {texts others : List String}
    (hbefore : listOfTextsBefore texts others = true) : listOfTextsBefore others texts = false := by
  have hless : ∀ x y, before x y = true → before y x = false := fun _ _ ↦ before_asymm
  exact listBefore_asymm hless hbefore

theorem listOfTextsBefore_trans {first second third : List String}
    (hfirst : listOfTextsBefore first second = true)
    (hsecond : listOfTextsBefore second third = true) : listOfTextsBefore first third = true := by
  have hless : ∀ x y z, before x y = true → before y z = true → before x z = true :=
    fun _ _ _ ↦ before_trans
  exact listBefore_trans hless hfirst hsecond

theorem listOfTextsBefore_total {texts others : List String} (hne : texts ≠ others) :
    listOfTextsBefore texts others = true ∨ listOfTextsBefore others texts = true :=
  listBefore_total (fun _ _ ↦ before_total) hne

/-- Not coming after passes on, since of two different lists one comes before the other. -/
theorem listOfTextsBefore_eq_false_trans {first second third : List String}
    (hfirst : listOfTextsBefore second first = false)
    (hsecond : listOfTextsBefore third second = false) : listOfTextsBefore third first = false := by
  by_cases hsame : first = second
  · rwa [hsame]
  · have hbefore : listOfTextsBefore first second = true :=
      (listOfTextsBefore_total hsame).resolve_right (Bool.eq_false_iff.mp hfirst)
    refine Bool.eq_false_iff.mpr fun hthird ↦ ?_
    exact Bool.eq_false_iff.mp hsecond (listOfTextsBefore_trans hthird hbefore)

/-! ### Numerals -/

open Hexadecimal

/-- Digits compare as their values do. -/
theorem charBefore_digit :
    ∀ first < 16, ∀ second < 16, first < second → charBefore (digit first) (digit second) := by
  decide

/-- Of two numerals of one length the smaller comes first. -/
theorem listBefore_of_value_lt {first second : List Char} (hlength : first.length = second.length)
    (hfirst : ∀ c ∈ first, IsCapital c) (hsecond : ∀ c ∈ second, IsCapital c)
    (hless : value first < value second) : listBefore charBefore first second = true := by
  induction first generalizing second with
  | nil =>
    rw [List.length_eq_zero_iff.mp hlength.symm] at hless
    exact absurd hless (Nat.lt_irrefl _)
  | cons c first ih =>
    cases second with
    | nil => exact absurd hlength (by simp)
    | cons d second =>
      have hrest : first.length = second.length := Nat.succ.inj hlength
      rw [List.forall_mem_cons] at hfirst hsecond
      obtain ⟨⟨a, ha, rfl⟩, hfirst⟩ := hfirst
      obtain ⟨⟨b, hb, rfl⟩, hsecond⟩ := hsecond
      rw [value_cons, value_cons, digitValue?_digit a ha, digitValue?_digit b hb, hrest,
        Option.getD_some, Option.getD_some] at hless
      rw [listBefore, Bool.or_eq_true, Bool.and_eq_true]
      -- The first digits decide unless they are the same.
      rcases Nat.lt_trichotomy a b with hab | rfl | hab
      · exact Or.inl (charBefore_digit a ha b hb hab)
      · exact Or.inr ⟨beq_self_eq_true _, ih hrest hfirst hsecond (Nat.lt_of_add_lt_add_left hless)⟩
      · have hroom := value_lt second
        have hmore : (b + 1) * 16 ^ second.length ≤ a * 16 ^ second.length :=
          Nat.mul_le_mul_right _ hab
        rw [Nat.add_mul, Nat.one_mul] at hmore
        omega

/-- Numbers that are written in one width sort as the numbers do, whatever follows. -/
theorem listBefore_padded_append (width : ℕ) {first second : ℕ}
    (hwidth : second < 16 ^ (width + 1)) (hless : first < second) (rest others : List Char) :
    listBefore charBefore ((padded (width + 1) first).toList ++ rest)
      ((padded (width + 1) second).toList ++ others) = true := by
  have hlength (number : ℕ) (hnumber : number < 16 ^ (width + 1)) :
      (padded (width + 1) number).toList.length = width + 1 :=
    Nat.le_antisymm (length_padded_le width (Nat.le_refl _) hnumber) (le_length_padded _ _)
  have hsame := (hlength first (Nat.lt_trans hless hwidth)).trans (hlength second hwidth).symm
  refine listBefore_append hsame (listBefore_of_value_lt hsame
    (fun _ ↦ isCapital_of_mem_padded) (fun _ ↦ isCapital_of_mem_padded) ?_) rest others
  rwa [value_padded, value_padded]

end PixelFont.Text
