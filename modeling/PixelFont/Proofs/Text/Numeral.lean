import Mathlib.Algebra.Group.Nat.Defs
import Mathlib.Data.List.Basic
import Mathlib.Data.List.Induction
import PixelFont.Text.Hexadecimal

/-!
Hexadecimal numerals as they are written. A numeral reads back as its number whatever the width it
is padded to, so that two numbers have two numerals; it is made of capital digits alone, at least
as many as the width and no more than the number needs.
-/

set_option autoImplicit false

namespace PixelFont.Text.Hexadecimal

/-- Whether a character is one of the digits that numerals are written with. -/
def IsCapital (c : Char) : Prop :=
  ∃ value < 16, c = digit value

theorem digitValue?_digit : ∀ value < 16, digitValue? (digit value) = some value := by
  decide

theorem isCapital_zero : IsCapital '0' :=
  ⟨0, by decide, rfl⟩

theorem IsCapital.isDigit {c : Char} (hcapital : IsCapital c) : isDigit c = true := by
  obtain ⟨value, hvalue, rfl⟩ := hcapital
  rw [Hexadecimal.isDigit, digitValue?_digit value hvalue]
  rfl

theorem IsCapital.isAlphanum {c : Char} (hcapital : IsCapital c) : c.isAlphanum = true := by
  obtain ⟨value, hvalue, rfl⟩ := hcapital
  have hall : ∀ value < 16, (digit value).isAlphanum = true := by decide
  exact hall value hvalue

theorem IsCapital.ne_small {c : Char} (hcapital : IsCapital c) : c ≠ 'n' := by
  obtain ⟨value, hvalue, rfl⟩ := hcapital
  have hall : ∀ value < 16, digit value ≠ 'n' := by decide
  exact hall value hvalue

/-! ### Digits -/

theorem isCapital_of_mem_digits {number : ℕ} {c : Char} (hmem : c ∈ digits number) :
    IsCapital c := by
  fun_induction digits number with
  | case1 number hsmall => exact ⟨number, hsmall, List.mem_singleton.mp hmem⟩
  | case2 number hlarge ih =>
    rcases List.mem_append.mp hmem with hfront | hlast
    · exact ih hfront
    · exact ⟨number % 16, Nat.mod_lt number (by decide), List.mem_singleton.mp hlast⟩

theorem value_append_singleton (numeral : List Char) (c : Char) :
    value (numeral ++ [c]) = value numeral * 16 + (digitValue? c).getD 0 := by
  simp [value]

theorem value_cons (c : Char) (numeral : List Char) :
    value (c :: numeral) = (digitValue? c).getD 0 * 16 ^ numeral.length + value numeral := by
  induction numeral using List.reverseRecOn with
  | nil => simp [value]
  | append_singleton numeral last ih =>
    rw [← List.cons_append, value_append_singleton, value_append_singleton, ih,
      List.length_append, List.length_singleton, Nat.pow_succ, Nat.add_mul, Nat.mul_assoc,
      Nat.add_assoc]

theorem digitValue?_lt {c : Char} {number : ℕ} (hc : digitValue? c = some number) :
    number < 16 := by
  have hle (low high : Char) (hbounds : low ≤ c ∧ c ≤ high) : c.toNat ≤ high.toNat := hbounds.2
  unfold digitValue? at hc
  split at hc
  · rename_i hbounds
    have hlast : c.toNat ≤ 57 := hle _ _ hbounds
    have hzero : '0'.toNat = 48 := rfl
    rw [← Option.some.inj hc]
    omega
  split at hc
  · rename_i hbounds
    have hlast : c.toNat ≤ 70 := hle _ _ hbounds
    have hfirst : 'A'.toNat = 65 := rfl
    rw [← Option.some.inj hc]
    omega
  split at hc
  · rename_i hbounds
    have hlast : c.toNat ≤ 102 := hle _ _ hbounds
    have hfirst : 'a'.toNat = 97 := rfl
    rw [← Option.some.inj hc]
    omega
  · exact absurd hc nofun

/-- A numeral denotes a number that its digits have room for. -/
theorem value_lt (numeral : List Char) : value numeral < 16 ^ numeral.length := by
  induction numeral using List.reverseRecOn with
  | nil => exact Nat.one_pos
  | append_singleton numeral c ih =>
    have hdigit : (digitValue? c).getD 0 < 16 := by
      cases hvalue : digitValue? c with
      | none => decide
      | some number => exact digitValue?_lt hvalue
    rw [value_append_singleton, List.length_append, List.length_singleton, Nat.pow_succ]
    omega

theorem value_digits (number : ℕ) : value (digits number) = number := by
  fun_induction digits number with
  | case1 number hsmall => simp [value, digitValue?_digit number hsmall]
  | case2 number hlarge ih =>
    have hlast : digitValue? (digit (number % 16)) = some (number % 16) :=
      digitValue?_digit _ (Nat.mod_lt number (by decide))
    rw [value_append_singleton, ih, hlast, Option.getD_some]
    exact Nat.div_add_mod' number 16

theorem value_zeros_append (count : ℕ) (numeral : List Char) :
    value (List.replicate count '0' ++ numeral) = value numeral := by
  induction count with
  | zero => rfl
  | succ count ih =>
    rw [List.replicate_succ, List.cons_append, ← ih]
    rfl

/-- A number below a power of sixteen takes no more digits than the exponent. -/
theorem length_digits_le {number : ℕ} (count : ℕ) (hnumber : number < 16 ^ (count + 1)) :
    (digits number).length ≤ count + 1 := by
  induction count generalizing number with
  | zero =>
    have hsmall : number < 16 := by simpa using hnumber
    rw [digits, if_pos hsmall]
    exact Nat.le_refl 1
  | succ count ih =>
    rw [digits]
    split
    · exact Nat.le_add_left 1 _
    · have hfront : number / 16 < 16 ^ (count + 1) := by
        rw [Nat.div_lt_iff_lt_mul (by decide), ← Nat.pow_succ]
        exact hnumber
      rw [List.length_append]
      exact Nat.succ_le_succ (ih hfront)

/-! ### Padded numerals -/

theorem toList_padded (width number : ℕ) :
    (padded width number).toList =
      List.replicate (width - (digits number).length) '0' ++ digits number := by
  have hsign : ¬ (number : Int) < 0 := Int.not_lt.mpr (Int.natCast_nonneg number)
  simp only [padded, if_neg hsign, String.toList_ofList, Int.natAbs_natCast, List.nil_append,
    List.length_nil, Nat.sub_zero]

theorem value_padded (width number : ℕ) : value (padded width number).toList = number := by
  rw [toList_padded, value_zeros_append, value_digits]

theorem padded_injective {first width second : ℕ}
    (hsame : padded width first = padded width second) : first = second := by
  rw [← value_padded width first, hsame, value_padded]

theorem isCapital_of_mem_padded {width number : ℕ} {c : Char}
    (hmem : c ∈ (padded width number).toList) : IsCapital c := by
  rw [toList_padded] at hmem
  rcases List.mem_append.mp hmem with hzero | hdigit
  · rw [List.eq_of_mem_replicate hzero]
    exact isCapital_zero
  · exact isCapital_of_mem_digits hdigit

theorem le_length_padded (width number : ℕ) : width ≤ (padded width number).toList.length := by
  rw [toList_padded, List.length_append, List.length_replicate]
  omega

theorem length_padded_le {width number : ℕ} (count : ℕ) (hwidth : width ≤ count + 1)
    (hnumber : number < 16 ^ (count + 1)) :
    (padded width number).toList.length ≤ count + 1 := by
  have hdigits := length_digits_le count hnumber
  rw [toList_padded, List.length_append, List.length_replicate]
  omega

/-! ### The numeral of a number -/

theorem isCapital_iff {c : Char} : IsCapital c ↔ c ∈ "0123456789ABCDEF".toList := by
  have hdigits : "0123456789ABCDEF".toList = (List.range 16).map digit := by decide
  rw [hdigits, IsCapital]
  simp only [List.mem_map, List.mem_range, eq_comm (a := c)]

/-- Whether digits are the numeral of a number in a least width: capital digits that denote the
number, no fewer than the width, and without a zero in front that the width does not ask for. -/
structure IsNumeral (width number : ℕ) (numeral : List Char) : Prop where
  capital : ∀ c ∈ numeral, c ∈ "0123456789ABCDEF".toList
  denotes : value numeral = number
  wide : width ≤ numeral.length
  tight : width < numeral.length → numeral.head? ≠ some '0'

theorem head?_digits {number : ℕ} (hnumber : number ≠ 0) :
    (digits number).head? ≠ some '0' := by
  fun_induction digits number with
  | case1 number hsmall =>
    have hall : ∀ number < 16, number ≠ 0 → digit number ≠ '0' := by decide
    exact fun hhead ↦ hall number hsmall hnumber (Option.some.inj hhead)
  | case2 number hlarge ih =>
    have hfront : number / 16 ≠ 0 := by omega
    have hne : digits (number / 16) ≠ [] := by
      intro hnil
      have hvalue := value_digits (number / 16)
      rw [hnil] at hvalue
      exact hfront hvalue.symm
    rw [List.head?_append_of_ne_nil _ hne]
    exact ih hfront

theorem isNumeral_padded {width number : ℕ} (hwidth : 0 < width) :
    IsNumeral width number (padded width number).toList where
  capital := fun _ hc ↦ isCapital_iff.mp (isCapital_of_mem_padded hc)
  denotes := value_padded width number
  wide := le_length_padded width number
  tight := by
    intro hlong
    rw [toList_padded, List.length_append, List.length_replicate] at hlong
    have hzeros : width - (digits number).length = 0 := by omega
    rw [toList_padded, hzeros]
    refine head?_digits ?_
    rintro rfl
    rw [digits, if_pos (by decide), List.length_singleton] at hlong
    omega

/-- Digits of one length that denote one number are the same. -/
theorem eq_of_value_eq {first second : List Char} (hlength : first.length = second.length)
    (hfirst : ∀ c ∈ first, IsCapital c) (hsecond : ∀ c ∈ second, IsCapital c)
    (hsame : value first = value second) : first = second := by
  induction first using List.reverseRecOn generalizing second with
  | nil => exact (List.length_eq_zero_iff.mp hlength.symm).symm
  | append_singleton first c ih =>
    obtain rfl | ⟨front, d, rfl⟩ := List.eq_nil_or_concat' second
    · exact absurd hlength (by simp)
    · rw [List.forall_mem_append, List.forall_mem_singleton] at hfirst hsecond
      obtain ⟨hfirst, a, ha, rfl⟩ := hfirst
      obtain ⟨hsecond, b, hb, rfl⟩ := hsecond
      rw [value_append_singleton, value_append_singleton, digitValue?_digit a ha,
        digitValue?_digit b hb, Option.getD_some, Option.getD_some] at hsame
      have hlast : a = b := by omega
      have hfronts : value first = value front := by omega
      rw [hlast, ih (by simpa using hlength) hfirst hsecond hfronts]

/-- Digits without a zero in front have no more room than the number that they denote needs. -/
theorem pow_length_le_mul_value {numeral : List Char} (hne : numeral ≠ [])
    (hcapital : ∀ c ∈ numeral, IsCapital c) (hhead : numeral.head? ≠ some '0') :
    16 ^ numeral.length ≤ 16 * value numeral := by
  cases numeral with
  | nil => exact absurd rfl hne
  | cons c rest =>
    obtain ⟨number, hnumber, rfl⟩ := hcapital c List.mem_cons_self
    have hpositive : 1 ≤ number := by
      refine Nat.one_le_iff_ne_zero.mpr ?_
      rintro rfl
      exact hhead rfl
    have hroom : 1 * 16 ^ rest.length ≤ number * 16 ^ rest.length :=
      Nat.mul_le_mul_right _ hpositive
    rw [value_cons, digitValue?_digit number hnumber, Option.getD_some, List.length_cons,
      Nat.pow_succ]
    omega

namespace IsNumeral

variable {width number : ℕ} {first second : List Char}

/-- A numeral in a width is no longer than another of the number. -/
theorem length_le (hfirst : IsNumeral width number first)
    (hsecond : IsNumeral width number second) :
    first.length ≤ second.length := by
  by_contra hlonger
  have hwide := hsecond.wide
  have hne : first ≠ [] := by
    rintro rfl
    exact hlonger (Nat.zero_le _)
  have hneeded := pow_length_le_mul_value hne
    (fun c hc ↦ isCapital_iff.mpr (hfirst.capital c hc)) (hfirst.tight (by omega))
  have hroom := value_lt second
  have hpower : 16 ^ (second.length + 1) ≤ 16 ^ first.length :=
    Nat.pow_le_pow_right (by decide) (by omega)
  rw [hfirst.denotes] at hneeded
  rw [hsecond.denotes] at hroom
  rw [Nat.pow_succ] at hpower
  omega

/-- A number has one numeral in a width. -/
theorem unique (hfirst : IsNumeral width number first) (hsecond : IsNumeral width number second) :
    first = second :=
  eq_of_value_eq (Nat.le_antisymm (hfirst.length_le hsecond) (hsecond.length_le hfirst))
    (fun c hc ↦ isCapital_iff.mpr (hfirst.capital c hc))
    (fun c hc ↦ isCapital_iff.mpr (hsecond.capital c hc))
    (hfirst.denotes.trans hsecond.denotes.symm)

end IsNumeral

/-- The numeral of a number in a width is the one that is written for it. -/
theorem isNumeral_iff {width number : ℕ} (hwidth : 0 < width) {numeral : List Char} :
    IsNumeral width number numeral ↔ numeral = (padded width number).toList := by
  constructor
  · exact fun hnumeral ↦ hnumeral.unique (isNumeral_padded hwidth)
  · rintro rfl
    exact isNumeral_padded hwidth

end PixelFont.Text.Hexadecimal
