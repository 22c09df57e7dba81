import Mathlib.Data.List.Infix
import Mathlib.Data.List.TakeWhile
import Mathlib.Data.Option.Basic
import PixelFont.Json.Reader

/-!
The limits of the reader of JSON. A text is given up only where it goes beyond them: it holds more
digits in a row than an integer may have, or more openings of lists and records than may be nested
(`Exceeds`). Reading takes a value off the start of a text and leaves a part of the text behind it,
so that what is wrong with a part is wrong with the text (`Reads.mono`), and what may be nested
within a list or a record is one less (`Exceeds.enter`). That the reader gives up for no other
reason is shown for values, items and members together, by the fuel. Conversely, some text is given
up whatever the limits are. Main statements: `exceeds_of_read`, `read_replicate_one`,
`read_replicate_opening`.
-/

set_option autoImplicit false

namespace PixelFont.Json

variable {limits : Limits} {depth : ℕ} {text other rest : List Char}

/-! ### Going beyond limits -/

/-- Whether a character opens a list or a record. -/
def isOpening (c : Char) : Bool :=
  c == '[' || c == '\x7b'

/-- How a text goes beyond limits where so many lists and records may still be nested. -/
inductive Exceeds (limits : Limits) (depth : ℕ) (text : List Char) : LimitFault → Prop where
  | digits {greatest : ℕ} {run : List Char} (hlimit : limits.digits = some greatest)
      (hrun : run <:+: text) (hdigits : ∀ c ∈ run, c.isDigit = true)
      (hmany : greatest < run.length) : Exceeds limits depth text (.digits greatest run.length)
  | nestedList (hmany : depth < text.countP isOpening) : Exceeds limits depth text .nestedList
  | nestedRecord (hmany : depth < text.countP isOpening) : Exceeds limits depth text .nestedRecord

/-- What is beyond the limits in a part of a text is so in the text. -/
theorem Exceeds.mono {fault : LimitFault} (hexceeds : Exceeds limits depth text fault)
    (hpart : text <:+ other) : Exceeds limits depth other fault := by
  have hopenings : text.countP isOpening ≤ other.countP isOpening := hpart.sublist.countP_le
  cases hexceeds with
  | digits hlimit hrun hdigits hmany =>
    exact .digits hlimit (hrun.trans hpart.isInfix) hdigits hmany
  | nestedList hmany => exact .nestedList (hmany.trans_le hopenings)
  | nestedRecord hmany => exact .nestedRecord (hmany.trans_le hopenings)

/-- What is too deep within a list or a record is so on the whole. -/
theorem Exceeds.enter {fault : LimitFault} (hexceeds : Exceeds limits depth text fault) {c : Char}
    (hopening : isOpening c = true) : Exceeds limits (depth + 1) (c :: text) fault := by
  have hopenings : (c :: text).countP isOpening = text.countP isOpening + 1 :=
    List.countP_cons_of_pos hopening
  cases hexceeds with
  | digits hlimit hrun hdigits hmany =>
    exact .digits hlimit (hrun.trans (List.suffix_cons c text).isInfix) hdigits hmany
  | nestedList hmany => exact .nestedList (by omega)
  | nestedRecord hmany => exact .nestedRecord (by omega)

/-- What reading at the start of a text may give: something before a part of the text, or a failure,
which is at a limit only if the text goes beyond it. -/
inductive Reads {α : Type} (limits : Limits) (depth : ℕ) (text : List Char) :
    Except Failure (α × List Char) → Prop where
  | ok {content : α} {rest : List Char} (hrest : rest <:+ text) :
      Reads limits depth text (.ok (content, rest))
  | malformed {fault : Fault} {rest : List Char} :
      Reads limits depth text (.error (.malformed fault rest))
  | beyond {fault : LimitFault} (hexceeds : Exceeds limits depth text fault) :
      Reads limits depth text (.error (.beyond fault))

namespace Reads

variable {α β : Type} {outcome : Except Failure (α × List Char)}

theorem mono (houtcome : Reads limits depth text outcome) (hpart : text <:+ other) :
    Reads limits depth other outcome := by
  cases houtcome with
  | ok hrest => exact .ok (hrest.trans hpart)
  | malformed => exact .malformed
  | beyond hexceeds => exact .beyond (hexceeds.mono hpart)

theorem enter (houtcome : Reads limits depth text outcome) {c : Char}
    (hopening : isOpening c = true) : Reads limits (depth + 1) (c :: text) outcome := by
  cases houtcome with
  | ok hrest => exact .ok (hrest.trans (List.suffix_cons c text))
  | malformed => exact .malformed
  | beyond hexceeds => exact .beyond (hexceeds.enter hopening)

/-- Reading goes on with the part of the text that is left. -/
theorem bind {next : α × List Char → Except Failure (β × List Char)}
    (houtcome : Reads limits depth text outcome)
    (hnext : ∀ content {rest}, rest <:+ text → Reads limits depth text (next (content, rest))) :
    Reads limits depth text (outcome >>= next) := by
  cases houtcome with
  | ok hrest => exact hnext _ hrest
  | malformed => exact .malformed
  | beyond hexceeds => exact .beyond hexceeds

end Reads

/-! ### Parts of a text -/

theorem skipBlank_suffix (text : List Char) : skipBlank text <:+ text :=
  List.dropWhile_suffix _

/-- A character after white space is followed by a part of the text. -/
theorem suffix_of_skipBlank_eq_cons {c : Char} (htext : skipBlank text = c :: rest) :
    rest <:+ text :=
  (List.suffix_cons c rest).trans (htext ▸ skipBlank_suffix text)

theorem dropWord?_suffix {word : List Char} (hword : dropWord? word text = some rest) :
    rest <:+ text := by
  fun_induction dropWord? word text with
  | case1 text => exact Option.some.inj hword ▸ List.suffix_refl _
  | case2 => cases hword
  | case3 word c text ih => exact (ih hword).trans (List.suffix_cons c text)
  | case4 => cases hword

theorem digitRun_eq (text : List Char) :
    digitRun text = (text.takeWhile Char.isDigit, text.dropWhile Char.isDigit) :=
  List.span_eq_takeWhile_dropWhile _ _

theorem fractionRun_suffix (text : List Char) : (fractionRun text).2 <:+ text := by
  unfold fractionRun
  split
  · rename_i text
    rw [digitRun_eq]
    dsimp only
    split
    · exact List.suffix_refl _
    · exact (List.dropWhile_suffix _).trans (List.suffix_cons '.' text)
  · exact List.suffix_refl _

theorem exponentSign_suffix (text : List Char) : (exponentSign text).2 <:+ text := by
  unfold exponentSign
  split
  · exact List.suffix_cons _ _
  · exact List.suffix_cons _ _
  · exact List.suffix_refl _

theorem exponentRun?_suffix {exponent : ℤ} (hrun : exponentRun? text = some (exponent, rest)) :
    rest <:+ text := by
  unfold exponentRun? at hrun
  split at hrun
  · cases hrun
  · rename_i c text
    split at hrun
    · simp only [digitRun_eq] at hrun
      split at hrun
      · cases hrun
      · rw [← (Prod.mk.inj (Option.some.inj hrun)).2]
        exact (List.dropWhile_suffix _).trans
          ((exponentSign_suffix text).trans (List.suffix_cons c text))
    · cases hrun

/-! ### Names, numbers and strings -/

/-- An integer is refused only for the number of its digits. -/
theorem reads_integer (negative : Bool) {run : List Char} (hrun : run <:+: text)
    (hdigits : ∀ c ∈ run, c.isDigit = true) (hrest : rest <:+ text) :
    Reads limits depth text ((limits.integer negative run).map (·, rest)) := by
  unfold Limits.integer
  split
  · rename_i greatest hlimit
    split
    · rename_i hmany
      exact .beyond (.digits hlimit hrun hdigits hmany)
    · exact .ok hrest
  · exact .ok hrest

theorem reads_unsigned? {negative : Bool} {outcome : Except Failure (Value × List Char)}
    (houtcome : unsigned? limits negative text = some outcome) :
    Reads limits depth text outcome := by
  obtain ⟨⟨whole, tail⟩, hwhole, hnumber⟩ := Option.map_eq_some_iff.mp houtcome
  obtain ⟨hdigits, htext⟩ : (∀ c ∈ whole, c.isDigit = true) ∧ text = whole ++ tail := by
    dsimp only at hwhole
    split at hwhole
    · obtain ⟨rfl, rfl⟩ := Prod.mk.inj (Option.some.inj hwhole)
      exact ⟨by simp, rfl⟩
    · rw [digitRun_eq] at hwhole
      dsimp only at hwhole
      split at hwhole
      · cases hwhole
      · obtain ⟨rfl, rfl⟩ := Prod.mk.inj (Option.some.inj hwhole)
        exact ⟨fun c ↦ List.mem_takeWhile_imp, (List.takeWhile_append_dropWhile).symm⟩
  have htail : (fractionRun tail).2 <:+ text :=
    (fractionRun_suffix tail).trans ⟨whole, htext.symm⟩
  dsimp only at hnumber
  split at hnumber
  · rw [← hnumber]
    exact reads_integer negative ⟨[], tail, htext.symm⟩ hdigits htail
  · rw [← hnumber]
    exact .ok htail
  · rename_i hexponent
    rw [← hnumber]
    exact .ok ((exponentRun?_suffix hexponent).trans htail)

theorem reads_atom (text : List Char) : Reads limits depth text (atom limits text) := by
  unfold atom
  dsimp only
  split
  · rename_i outcome houtcome
    rcases (Option.orElse_eq_some _ _ _).mp houtcome with hname | ⟨-, hnumber⟩
    · obtain ⟨entry, -, hword⟩ := List.exists_of_findSome?_eq_some hname
      obtain ⟨tail, htail, rfl⟩ := Option.map_eq_some_iff.mp hword
      exact .ok (dropWord?_suffix htail)
    · split at hnumber
      · exact (reads_unsigned? hnumber).mono (List.suffix_cons _ _)
      · exact reads_unsigned? hnumber
  · exact .malformed

theorem reads_stringRest (opening : List Char) (units : List ℕ) (text : List Char) :
    Reads limits depth text (stringRest opening units text) := by
  fun_induction stringRest opening units text with
  | case1 | case3 | case5 | case6 | case8 | case9 => exact .malformed
  | case2 units rest => exact .ok (List.suffix_cons _ _)
  | case4 units a b c d first rest unit _ ih => exact ih.mono ⟨['\\', 'u', a, b, c, d], rfl⟩
  | case7 units c rest _ _ meant _ ih => exact ih.mono ⟨['\\', c], rfl⟩
  | case10 units c rest _ _ _ _ _ _ ih => exact ih.mono (List.suffix_cons c rest)

/-! ### Values -/

/-- What values, lists and records that are read with some fuel may give. -/
structure ReadsAll (limits : Limits) (fuel : ℕ) : Prop where
  value : ∀ depth text, Reads limits depth text (value limits fuel depth text)
  items : ∀ depth before text, Reads limits depth text (items limits fuel depth before text)
  members : ∀ depth before text, Reads limits depth text (members limits fuel depth before text)

theorem readsAll_zero : ReadsAll limits 0 where
  value := fun _ _ ↦ by
    unfold Json.value
    exact .malformed
  items := fun _ _ _ ↦ by
    unfold Json.items
    exact .malformed
  members := fun _ _ _ ↦ by
    unfold Json.members
    exact .malformed

namespace ReadsAll

variable {fuel : ℕ} (hfuel : ReadsAll limits fuel)
include hfuel

/-- Entering a list or a record uses up one opening and one of those that may be nested. -/
theorem value_succ (depth : ℕ) (text : List Char) :
    Reads limits depth text (Json.value limits (fuel + 1) depth text) := by
  unfold Json.value
  split
  · rename_i rest
    exact ((reads_stringRest _ _ rest).mono (List.suffix_cons _ _)).bind fun _ _ hrest ↦ .ok hrest
  · rename_i rest
    split
    · exact .beyond (.nestedList (by simp [isOpening]))
    · refine Reads.enter ?_ (by decide)
      split
      · rename_i hrest
        exact .ok (suffix_of_skipBlank_eq_cons hrest)
      · exact (hfuel.items _ _ _).mono (skipBlank_suffix rest)
  · rename_i rest
    split
    · exact .beyond (.nestedRecord (by simp [isOpening]))
    · refine Reads.enter ?_ (by decide)
      split
      · rename_i hrest
        exact .ok (suffix_of_skipBlank_eq_cons hrest)
      · exact (hfuel.members _ _ _).mono (skipBlank_suffix rest)
  · exact reads_atom text

theorem items_succ (depth : ℕ) (before : List Value) (text : List Char) :
    Reads limits depth text (Json.items limits (fuel + 1) depth before text) := by
  unfold Json.items
  refine (hfuel.value depth text).bind fun item rest hrest ↦ ?_
  dsimp only
  split
  · rename_i tail htail
    exact .ok ((suffix_of_skipBlank_eq_cons htail).trans hrest)
  · rename_i tail htail
    exact (hfuel.items _ _ _).mono
      ((skipBlank_suffix tail).trans ((suffix_of_skipBlank_eq_cons htail).trans hrest))
  · exact .malformed

theorem members_succ (depth : ℕ) (before : List (String × Value)) (text : List Char) :
    Reads limits depth text (Json.members limits (fuel + 1) depth before text) := by
  unfold Json.members
  split
  · rename_i rest
    refine ((reads_stringRest _ _ rest).mono (List.suffix_cons _ _)).bind fun key tail hkey ↦ ?_
    dsimp only
    split
    · rename_i colon hcolon
      have hcontent : skipBlank colon <:+ '"' :: rest :=
        (skipBlank_suffix colon).trans ((suffix_of_skipBlank_eq_cons hcolon).trans hkey)
      refine ((hfuel.value depth _).mono hcontent).bind fun content after hafter ↦ ?_
      dsimp only
      split
      · rename_i closed hclosed
        exact .ok ((suffix_of_skipBlank_eq_cons hclosed).trans hafter)
      · rename_i comma hcomma
        exact (hfuel.members _ _ _).mono
          ((skipBlank_suffix comma).trans ((suffix_of_skipBlank_eq_cons hcomma).trans hafter))
      · exact .malformed
    · exact .malformed
  · exact .malformed

end ReadsAll

theorem readsAll (limits : Limits) (fuel : ℕ) : ReadsAll limits fuel := by
  induction fuel with
  | zero => exact readsAll_zero
  | succ fuel ih => exact ⟨ih.value_succ, ih.items_succ, ih.members_succ⟩

/-! ### Texts -/

/-- A text that the reader gives up at a limit goes beyond the limit. -/
theorem exceeds_of_read {fault : LimitFault} (hread : read limits text = .error (.beyond fault)) :
    Exceeds limits limits.depth text fault := by
  unfold read at hread
  split at hread
  · cases hread
  · have hvalue := (readsAll limits (2 * text.length + 1)).value limits.depth (skipBlank text)
    split at hread
    · rename_i failure hfailure
      rw [hfailure] at hvalue
      cases hvalue with
      | malformed => cases hread
      | beyond hexceeds =>
        obtain rfl := ReadError.beyond.inj (Except.error.inj hread)
        exact hexceeds.mono (skipBlank_suffix text)
    · split at hread
      · cases hread
      · cases hread

/-- An integer with one digit too many is beyond the limit, whatever the limit is. -/
theorem read_replicate_one {greatest : ℕ} (hlimit : limits.digits = some greatest) :
    read limits (List.replicate (greatest + 1) '1') =
      .error (.beyond (.digits greatest (greatest + 1))) := by
  have hrun : digitRun (List.replicate (greatest + 1) '1') =
      (List.replicate (greatest + 1) '1', []) := by
    have hall : ∀ c ∈ List.replicate (greatest + 1) '1', c.isDigit = true := by simp
    rw [digitRun_eq, List.takeWhile_eq_self_iff.mpr hall, List.dropWhile_eq_nil_iff.mpr hall]
  have hnumber : unsigned? limits false (List.replicate (greatest + 1) '1') =
      some (.error (.beyond (.digits greatest (greatest + 1)))) := by
    rw [List.replicate_succ] at hrun ⊢
    simp [unsigned?, hrun, fractionRun, exponentRun?, Limits.integer, hlimit, Except.map]
  rw [List.replicate_succ] at hnumber ⊢
  simp [read, value, skipBlank, atom, names, dropWord?, hnumber, Failure.inText]

/-- One list too many within one another is beyond the limit, whatever the limit is. -/
theorem read_replicate_opening :
    read limits (List.replicate (limits.depth + 1) '[') = .error (.beyond .nestedList) := by
  have hblank (count : ℕ) : skipBlank (List.replicate count '[') = List.replicate count '[' := by
    cases count <;> rfl
  have hvalue (depth fuel : ℕ) (hfuel : 2 * depth < fuel) :
      value limits fuel depth (List.replicate (depth + 1) '[') = .error (.beyond .nestedList) := by
    induction depth generalizing fuel with
    | zero =>
      obtain ⟨fuel, rfl⟩ := Nat.exists_eq_add_one_of_ne_zero (by omega : fuel ≠ 0)
      rfl
    | succ depth ih =>
      obtain ⟨fuel, rfl⟩ := Nat.exists_eq_add_of_le' (by omega : 2 ≤ fuel)
      have hitems : items limits (fuel + 1) depth [] (List.replicate (depth + 1) '[') =
          .error (.beyond .nestedList) := by
        rw [items, ih fuel (by omega)]
        rfl
      rw [List.replicate_succ]
      simp only [value, hblank]
      exact hitems
  have hhead : (List.replicate (limits.depth + 1) '[').head? ≠ some '\ufeff' := by
    simp [List.head?_replicate]
  rw [read, if_neg hhead, hblank, hvalue _ _ (by rw [List.length_replicate]; omega)]
  rfl

end PixelFont.Json
