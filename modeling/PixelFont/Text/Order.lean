/-!
The order of texts by the codepoints of their characters, and of lists by their first items that
differ; a list comes before those that it begins. Main statements: nothing comes before itself,
and of two different texts one comes before the other.
-/

set_option autoImplicit false

namespace PixelFont.Text

/-- Whether a list comes before another, given which item comes before which. -/
def listBefore {α : Type} [DecidableEq α] (before : α → α → Bool) : List α → List α → Bool
  | _, [] => false
  | [], _ :: _ => true
  | x :: xs, y :: ys => before x y || (x == y && listBefore before xs ys)

/-- Whether a character comes before another. -/
def charBefore (c d : Char) : Bool :=
  c.toNat < d.toNat

/-- Whether a text comes before another. -/
def before (text other : String) : Bool :=
  listBefore charBefore text.toList other.toList

/-- Whether a list of texts comes before another. -/
def listOfTextsBefore (texts others : List String) : Bool :=
  listBefore before texts others

/-- No list comes before itself, if no item does. -/
theorem listBefore_irrefl {α : Type} [DecidableEq α] {less : α → α → Bool}
    (hless : ∀ x, less x x = false) (xs : List α) : listBefore less xs xs = false := by
  induction xs with
  | nil => rfl
  | cons x xs ih => simp [listBefore, hless, ih]

/-- Of two different lists one comes before the other, if it is so for items. -/
theorem listBefore_total {α : Type} [DecidableEq α] {less : α → α → Bool}
    (hless : ∀ x y, x ≠ y → less x y = true ∨ less y x = true) {xs ys : List α} (hne : xs ≠ ys) :
    listBefore less xs ys = true ∨ listBefore less ys xs = true := by
  induction xs generalizing ys with
  | nil =>
    cases ys with
    | nil => exact absurd rfl hne
    | cons y ys => exact .inl rfl
  | cons x xs ih =>
    cases ys with
    | nil => exact .inr rfl
    | cons y ys =>
      by_cases hxy : x = y
      · subst hxy
        have htail : xs ≠ ys := fun h ↦ hne (by rw [h])
        rcases ih htail with h | h
        · exact .inl (by simp [listBefore, h])
        · exact .inr (by simp [listBefore, h])
      · rcases hless x y hxy with h | h
        · exact .inl (by simp [listBefore, h])
        · exact .inr (by simp [listBefore, h])

/-- No text comes before itself. -/
theorem before_irrefl (text : String) : before text text = false :=
  listBefore_irrefl (fun c ↦ by simp [charBefore]) text.toList

/-- Of two different texts one comes before the other. -/
theorem before_total {text other : String} (hne : text ≠ other) :
    before text other = true ∨ before other text = true := by
  refine listBefore_total (fun c d hcd ↦ ?_) fun h ↦ hne (String.toList_injective h)
  simp only [charBefore, decide_eq_true_eq]
  rcases Nat.lt_trichotomy c.toNat d.toNat with h | h | h
  · exact .inl h
  · exact absurd (Char.toNat_inj.mp h) hcd
  · exact .inr h

end PixelFont.Text
