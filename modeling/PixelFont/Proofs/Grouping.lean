import Mathlib.Data.Int.Order.Basic
import Mathlib.Data.List.Count
import Mathlib.Data.List.Nodup
import Mathlib.Data.List.Sort
import PixelFont.Number.Total

/-!
Items counted along lists and by groups. Related pairs are counted along either of two lists
(`total_countP_comm`). Items are grouped by a key, the keys being the distinct ones in the order in
which they first occur, which is the order of the items where these stand in one
(`pairwise_eraseDups_map`). Grouping loses no item and doubles none: `total_countP_of_nodup` counts
the items of a property group by group, and `total_countP_eraseDups` is its case for the keys that
occur. Keys in another order have the same distinct ones (`perm_eraseDups`), and numbers in another
order are sorted alike. Other statements turn a bound on the size of every group into a relation of
any two items.
Where each entry of a list has a key of its own, looking a key up finds the entry wherever it stands
(`find?_key_eq_some_iff`).
-/

set_option autoImplicit false

namespace PixelFont.Grouping

open Number

variable {α κ : Type}

/-! ### Totals -/

theorem total_congr {first second : α → ℕ} {items : List α}
    (h : ∀ item ∈ items, first item = second item) : total first items = total second items := by
  induction items with
  | nil => rfl
  | cons item items ih =>
    rw [List.forall_mem_cons] at h
    rw [total, total, h.1, ih h.2]

theorem total_add (first second : α → ℕ) (items : List α) :
    total (fun item ↦ first item + second item) items = total first items + total second items := by
  induction items with
  | nil => rfl
  | cons item items ih =>
    rw [total, total, total, ih]
    omega

theorem total_zero (items : List α) : total (fun _ ↦ 0) items = 0 := by
  induction items with
  | nil => rfl
  | cons item items ih => rw [total, ih]

/-- A count that is the same for some items and zero for the others. -/
theorem total_ite (property : α → Bool) (count : ℕ) (items : List α) :
    total (fun item ↦ if property item then count else 0) items =
      items.countP property * count := by
  induction items with
  | nil => exact (Nat.zero_mul count).symm
  | cons item items ih =>
    rw [total, ih, List.countP_cons, Nat.add_mul, Nat.add_comm]
    cases property item <;> simp

/-- The related pairs of two lists may be counted along either. -/
theorem total_countP_comm {β : Type} (related : α → β → Bool) (items : List α) (others : List β) :
    total (fun item ↦ others.countP (related item)) items =
      total (fun other ↦ items.countP (related · other)) others := by
  induction items with
  | nil => exact (total_zero others).symm
  | cons item items ih =>
    have hfirst := total_ite (related item) 1 others
    rw [Nat.mul_one] at hfirst
    simp only [List.countP_cons, total_add]
    rw [total, ih, hfirst, Nat.add_comm]

/-- The items counted in lists joined are those counted list by list. -/
theorem countP_flatMap_eq_total {β : Type} (property : β → Bool) (expand : α → List β)
    (items : List α) :
    (items.flatMap expand).countP property =
      total (fun item ↦ (expand item).countP property) items := by
  induction items with
  | nil => rfl
  | cons item items ih => rw [List.flatMap_cons, List.countP_append, ih, total]

/-! ### Distinct keys -/

variable [BEq κ] [LawfulBEq κ]

theorem nodup_eraseDups (keys : List κ) : keys.eraseDups.Nodup := by
  -- The recursion goes to the keys other than the first, which are fewer but no tail.
  match keys with
  | [] => exact List.nodup_nil
  | key :: keys =>
    rw [List.eraseDups_cons, List.nodup_cons]
    exact ⟨by simp, nodup_eraseDups (keys.filter fun other ↦ !other == key)⟩
termination_by keys.length
decreasing_by exact Nat.lt_succ_of_le (List.length_filter_le _ _)

theorem perm_eraseDups {keys others : List κ} (hkeys : keys.Perm others) :
    keys.eraseDups.Perm others.eraseDups := by
  apply (List.perm_ext_iff_of_nodup (nodup_eraseDups _) (nodup_eraseDups _)).mpr
  intro key
  rw [List.mem_eraseDups, List.mem_eraseDups, hkeys.mem_iff]

theorem mergeSort_congr {numbers others : List Int} (hnumbers : numbers.Perm others) :
    numbers.mergeSort = others.mergeSort := by
  have hsorted (list : List Int) : list.mergeSort.Pairwise (· ≤ ·) :=
    List.pairwise_mergeSort' (· ≤ ·) list
  have hsame : numbers.mergeSort.Perm others.mergeSort :=
    (List.mergeSort_perm _ _).trans (hnumbers.trans (List.mergeSort_perm _ _).symm)
  exact hsame.eq_of_pairwise (fun _ _ _ _ ↦ Int.le_antisymm) (hsorted _) (hsorted _)

/-- The distinct keys of items that stand in an order come in that order themselves: of two keys,
an item of the earlier one stands before every item of the later one. -/
theorem pairwise_eraseDups_map {before : α → α → Prop} (key : α → κ) {items : List α}
    (hitems : items.Pairwise before) :
    (items.map key).eraseDups.Pairwise fun first second ↦
      ∃ item ∈ items, key item = first ∧
        ∀ other ∈ items, key other = second → before item other := by
  -- The recursion goes to the items of other keys, which are fewer but no tail.
  match items with
  | [] => exact List.Pairwise.nil
  | item :: items =>
    let others := items.filter fun other ↦ !key other == key item
    have hothers : (items.map key).filter (fun k ↦ !k == key item) = others.map key :=
      List.filter_map
    obtain ⟨hfirst, hrest⟩ := List.pairwise_cons.mp hitems
    rw [List.map_cons, List.eraseDups_cons, hothers, List.pairwise_cons]
    have hmem {other : α} {k : κ} (hk : k ∈ (others.map key).eraseDups)
        (hother : other ∈ item :: items) (hkey : key other = k) :
        other ∈ others ∧ other ∈ items := by
      obtain ⟨another, hanother, hsame⟩ := List.mem_map.mp (List.mem_eraseDups.mp hk)
      have hne : (!key other == key item) = true := by
        rw [hkey, ← hsame]
        exact (List.mem_filter.mp hanother).2
      have htail : other ∈ items := by
        refine (List.mem_cons.mp hother).resolve_left ?_
        rintro rfl
        simp at hne
      exact ⟨List.mem_filter.mpr ⟨htail, hne⟩, htail⟩
    constructor
    · intro second hsecond
      refine ⟨item, List.mem_cons_self, rfl, fun other hother hkey ↦ ?_⟩
      exact hfirst other (hmem hsecond hother hkey).2
    · have hlater := pairwise_eraseDups_map key (hrest.filter fun other ↦ !key other == key item)
      refine hlater.imp_of_mem fun {first second} _ hsecond hbefore ↦ ?_
      obtain ⟨earlier, hearlier, hkey, hall⟩ := hbefore
      refine ⟨earlier, List.mem_cons_of_mem _ (List.mem_of_mem_filter hearlier), hkey, ?_⟩
      intro other hother hsame
      exact hall other (hmem hsecond hother hsame).1 hsame
termination_by items.length
decreasing_by exact Nat.lt_succ_of_le (List.length_filter_le _ _)

/-- Among entries of distinct keys, the one of a key is found. -/
theorem find?_key_eq_some_iff {β : Type} {entries : List (κ × β)}
    (hkeys : (entries.map Prod.fst).Nodup) {key : κ} {entry : κ × β} :
    entries.find? (·.1 == key) = some entry ↔ entry ∈ entries ∧ entry.1 = key := by
  constructor
  · intro hfound
    exact ⟨List.mem_of_find?_eq_some hfound, by simpa using List.find?_some hfound⟩
  · rintro ⟨hentry, rfl⟩
    cases hfound : entries.find? (·.1 == entry.1) with
    | none => exact absurd (List.find?_eq_none.mp hfound entry hentry) (by simp)
    | some other =>
      have hkey : other.1 = entry.1 := by simpa using List.find?_some hfound
      rw [List.inj_on_of_nodup_map hkeys (List.mem_of_find?_eq_some hfound) hentry hkey]

theorem length_eraseDups_le (keys : List κ) : keys.eraseDups.length ≤ keys.length :=
  (List.subperm_of_subset (nodup_eraseDups keys) fun _ ↦ List.mem_eraseDups.mp).length_le

/-- Among distinct keys, that of an item is met once. -/
theorem total_indicator_of_nodup {keys : List κ} (hkeys : keys.Nodup) {key : κ}
    (hkey : key ∈ keys) : total (fun k ↦ if key == k then 1 else 0) keys = 1 := by
  induction keys with
  | nil => exact absurd hkey List.not_mem_nil
  | cons k keys ih =>
    rw [List.nodup_cons] at hkeys
    rw [total]
    by_cases hfirst : key = k
    · subst hfirst
      have hrest : total (fun k ↦ if key == k then 1 else 0) keys = total (fun _ ↦ 0) keys := by
        refine total_congr fun other hother ↦ ?_
        have hne : key ≠ other := fun h ↦ hkeys.1 (h ▸ hother)
        rw [beq_false_of_ne hne]
        rfl
      rw [hrest, total_zero, beq_self_eq_true]
      rfl
    · have hmem : key ∈ keys := (List.mem_cons.mp hkey).resolve_left hfirst
      rw [ih hkeys.2 hmem, beq_false_of_ne hfirst]
      rfl

/-- The items of a property counted under each of distinct keys, among which is the key of every
item. -/
theorem total_countP_of_nodup (key : α → κ) (property : α → Bool) {keys : List κ}
    (hkeys : keys.Nodup) {items : List α} (hitems : ∀ item ∈ items, key item ∈ keys) :
    total (fun k ↦ items.countP fun item ↦ key item == k && property item) keys =
      items.countP property := by
  induction items with
  | nil => exact total_zero keys
  | cons item items ih =>
    rw [List.forall_mem_cons] at hitems
    have hone := total_indicator_of_nodup hkeys hitems.1
    simp only [List.countP_cons, total_add, ih hitems.2]
    congr 1
    cases property item
    · simpa using total_zero keys
    · simpa only [Bool.and_true, if_true] using hone

/-- The items of a property counted key by key. -/
theorem total_countP_eraseDups (key : α → κ) (property : α → Bool) (items : List α) :
    total (fun k ↦ items.countP fun item ↦ key item == k && property item)
      (items.map key).eraseDups = items.countP property :=
  total_countP_of_nodup key property (nodup_eraseDups _) fun _ hitem ↦
    List.mem_eraseDups.mpr (List.mem_map_of_mem hitem)

/-! ### Groups of fewer than two -/

theorem length_lt_two_iff {items : List α} :
    items.length < 2 ↔ items.Pairwise fun _ _ ↦ False := by
  match items with
  | [] => simp
  | [_] => simp
  | _ :: _ :: _ =>
    refine iff_of_false (by simp) fun hpairwise ↦ ?_
    exact (List.pairwise_cons.mp hpairwise).1 _ List.mem_cons_self

/-- No key stands with two items exactly if no two items have a key in common. -/
theorem forall_length_filter_lt_two_iff {key : α → Option κ} {items : List α} :
    (∀ k, (items.filter fun item ↦ key item == some k).length < 2) ↔
      items.Pairwise fun first second ↦ ¬ ∃ k, key first = some k ∧ key second = some k := by
  simp only [length_lt_two_iff, List.pairwise_filter, beq_iff_eq, not_exists, not_and]
  -- Both sides speak of two places of the list, where the key may be named before or after.
  simp only [List.pairwise_iff_getElem]
  constructor
  · intro hapart i j hi hj hij k hfirst hsecond
    exact hapart k i j hi hj hij hfirst hsecond
  · intro hapart k i j hi hj hij hfirst hsecond
    exact hapart i j hi hj hij k hfirst hsecond

/-- Fewer than two distinct keys occur exactly if any two are the same. -/
theorem length_eraseDups_lt_two_iff {keys : List κ} :
    keys.eraseDups.length < 2 ↔ ∀ first ∈ keys, ∀ second ∈ keys, first = second := by
  have hnodup := nodup_eraseDups keys
  have hmem (key : κ) : key ∈ keys ↔ key ∈ keys.eraseDups := List.mem_eraseDups.symm
  simp only [hmem]
  generalize keys.eraseDups = distinct at hnodup
  match distinct with
  | [] => simp
  | [key] => simp
  | first :: second :: rest =>
    refine iff_of_false (by simp) fun hsame ↦ ?_
    have heq := hsame first List.mem_cons_self second (by simp)
    exact (List.nodup_cons.mp hnodup).1 (heq ▸ List.mem_cons_self)

end PixelFont.Grouping
