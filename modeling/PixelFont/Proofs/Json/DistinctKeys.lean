import Mathlib.Data.List.Nodup
import Mathlib.Data.Option.Basic
import PixelFont.Json.Reader
import PixelFont.Proofs.Traversal

/-!
Keys of records that are read from JSON. A key that a text repeats is assigned to once more, so that
no record of what is read has a key twice, at whatever depth it stands. The reader begins values
within values, and what it has read of a list or a record is carried along; that this keeps its keys
distinct is shown for the three of them together, by the fuel. Main statement:
`Json.hasDistinctKeys_read`.
-/

set_option autoImplicit false

namespace PixelFont

namespace Value

/-! ### Fields of a record -/

section Fields

variable {fields : List (String × Value)} {key other : String} {content : Value}

theorem mem_of_lookup?_eq_some (hlookup : lookup? fields key = some content) :
    (key, content) ∈ fields := by
  obtain ⟨field, hfind, rfl⟩ := Option.map_eq_some_iff.mp hlookup
  have hkey : field.1 = key := by simpa using List.find?_some hfind
  exact hkey ▸ List.mem_of_find?_eq_some hfind

/-- A key is looked up in vain exactly if no field has it. -/
theorem lookup?_eq_none_iff : lookup? fields key = none ↔ ∀ field ∈ fields, field.1 ≠ key := by
  simp [lookup?]

/-- Assigning to a key changes no other field. -/
theorem lookup?_assign_of_ne (hne : other ≠ key) :
    lookup? (assign fields key content) other = lookup? fields other := by
  have hself : (key == other) = false := beq_false_of_ne hne.symm
  have hreplaced : (fields.map fun field ↦ if field.1 == key then (key, content) else field).find?
      (·.1 == other) = fields.find? (·.1 == other) := by
    induction fields with
    | nil => rfl
    | cons field fields ih =>
      rw [List.map_cons, List.find?_cons, List.find?_cons, ih]
      by_cases hkey : field.1 = key
      · simp [hkey, hself]
      · simp [hkey]
  unfold assign lookup?
  split
  · rw [hreplaced]
  · rw [List.find?_append, List.find?_cons_of_neg (by simp [hself]), List.find?_nil, Option.or_none]

theorem eq_or_mem_of_mem_assign {field : String × Value}
    (hfield : field ∈ assign fields key content) : field = (key, content) ∨ field ∈ fields := by
  unfold assign at hfield
  split at hfield
  · obtain ⟨before, hbefore, rfl⟩ := List.mem_map.mp hfield
    split
    · exact Or.inl rfl
    · exact Or.inr hbefore
  · rcases List.mem_append.mp hfield with hbefore | hlast
    · exact Or.inr hbefore
    · exact Or.inl (List.mem_singleton.mp hlast)

/-- Assigning to a key keeps the keys distinct. -/
theorem nodup_keys_assign (hdistinct : (fields.map (·.1)).Nodup) :
    ((assign fields key content).map (·.1)).Nodup := by
  unfold assign
  split
  · have hkeys : (fields.map fun field ↦ if field.1 == key then (key, content) else field).map
        (·.1) = fields.map (·.1) := by
      rw [List.map_map]
      refine List.map_congr_left fun field _ ↦ ?_
      by_cases hkey : field.1 = key <;> simp [hkey]
    rwa [hkeys]
  · rename_i hnew
    rw [List.map_append, List.map_singleton]
    refine List.nodup_append.mpr ⟨hdistinct, List.nodup_singleton key, ?_⟩
    rintro before hbefore _ hkey rfl
    obtain ⟨field, hfield, rfl⟩ := List.mem_map.mp hbefore
    refine hnew (List.any_eq_true.mpr ⟨field, hfield, ?_⟩)
    simpa using List.mem_singleton.mp hkey

end Fields

/-! ### Values at any depth -/

/-- A value none of whose records has a key twice. -/
inductive HasDistinctKeys : Value → Prop where
  | null : HasDistinctKeys null
  | bool (flag : Bool) : HasDistinctKeys (bool flag)
  | int (number : Int) : HasDistinctKeys (int number)
  | real (number : Number.Binary64) : HasDistinctKeys (real number)
  | text (content : String) : HasDistinctKeys (text content)
  | list (items : List Value) (hitems : ∀ item ∈ items, HasDistinctKeys item) :
    HasDistinctKeys (list items)
  | record (fields : List (String × Value)) (hkeys : (fields.map (·.1)).Nodup)
    (hfields : ∀ field ∈ fields, HasDistinctKeys field.2) : HasDistinctKeys (record fields)

theorem hasDistinctKeys_record_iff {fields : List (String × Value)} :
    HasDistinctKeys (.record fields) ↔
      (fields.map (·.1)).Nodup ∧ ∀ field ∈ fields, HasDistinctKeys field.2 := by
  constructor
  · intro hrecord
    cases hrecord with
    | record _ hkeys hfields => exact ⟨hkeys, hfields⟩
  · rintro ⟨hkeys, hfields⟩
    exact .record fields hkeys hfields

theorem hasDistinctKeys_assign {fields : List (String × Value)} {key : String} {content : Value}
    (hrecord : HasDistinctKeys (.record fields)) (hcontent : HasDistinctKeys content) :
    HasDistinctKeys (.record (assign fields key content)) := by
  obtain ⟨hkeys, hfields⟩ := hasDistinctKeys_record_iff.mp hrecord
  refine .record _ (nodup_keys_assign hkeys) fun field hfield ↦ ?_
  rcases eq_or_mem_of_mem_assign hfield with rfl | hbefore
  · exact hcontent
  · exact hfields field hbefore

end Value

/-! ### Reading -/

namespace Json

open Value

variable {limits : Limits}

/-- A number is no record. -/
theorem hasDistinctKeys_of_unsigned? {negative : Bool} {text rest : List Char} {content : Value}
    (hread : unsigned? limits negative text = some (.ok (content, rest))) :
    content.HasDistinctKeys := by
  obtain ⟨⟨whole, tail⟩, -, hcontent⟩ := Option.map_eq_some_iff.mp hread
  dsimp only at hcontent
  split at hcontent
  · obtain ⟨number, hnumber, hpair⟩ := Traversal.map_eq_ok_iff.mp hcontent
    rw [← (Prod.mk.inj hpair).1]
    unfold Limits.integer at hnumber
    split at hnumber
    · split at hnumber
      · cases hnumber
      · exact Except.ok.inj hnumber ▸ .int _
    · exact Except.ok.inj hnumber ▸ .int _
  · exact (Prod.mk.inj (Except.ok.inj hcontent)).1 ▸ .real _
  · exact (Prod.mk.inj (Except.ok.inj hcontent)).1 ▸ .real _

theorem hasDistinctKeys_of_mem_names {entry : List Char × Value} (hentry : entry ∈ names) :
    entry.2.HasDistinctKeys := by
  simp only [names, List.mem_cons, List.not_mem_nil, or_false] at hentry
  rcases hentry with rfl | rfl | rfl | rfl | rfl | rfl
  exacts [.null, .bool _, .bool _, .real _, .real _, .real _]

theorem hasDistinctKeys_of_atom {text rest : List Char} {content : Value}
    (hread : atom limits text = .ok (content, rest)) : content.HasDistinctKeys := by
  unfold atom at hread
  dsimp only at hread
  split at hread
  · rename_i result hresult
    rw [hread] at hresult
    rcases (Option.orElse_eq_some _ _ _).mp hresult with hname | ⟨-, hnumber⟩
    · obtain ⟨entry, hentry, hword⟩ := List.exists_of_findSome?_eq_some hname
      obtain ⟨tail, -, hcontent⟩ := Option.map_eq_some_iff.mp hword
      exact (Prod.mk.inj (Except.ok.inj hcontent)).1 ▸ hasDistinctKeys_of_mem_names hentry
    · split at hnumber
      · exact hasDistinctKeys_of_unsigned? hnumber
      · exact hasDistinctKeys_of_unsigned? hnumber
  · exact absurd hread nofun

/-- Whether values, lists and records that are read with some fuel have distinct keys, provided that
what was read of them before has. -/
structure KeepsKeysDistinct (limits : Limits) (fuel : ℕ) : Prop where
  value : ∀ {depth text content rest}, value limits fuel depth text = .ok (content, rest) →
    HasDistinctKeys content
  items : ∀ {depth before text content rest}, (∀ item ∈ before, HasDistinctKeys item) →
    items limits fuel depth before text = .ok (content, rest) → HasDistinctKeys content
  members : ∀ {depth before text content rest}, HasDistinctKeys (.record before) →
    members limits fuel depth before text = .ok (content, rest) → HasDistinctKeys content

theorem keepsKeysDistinct_zero : KeepsKeysDistinct limits 0 where
  value := fun hread ↦ by
    unfold Json.value at hread
    exact absurd hread nofun
  items := fun _ hread ↦ by
    unfold Json.items at hread
    exact absurd hread nofun
  members := fun _ hread ↦ by
    unfold Json.members at hread
    exact absurd hread nofun

namespace KeepsKeysDistinct

variable {fuel depth : ℕ} (hfuel : KeepsKeysDistinct limits fuel) {text rest : List Char}
  {content : Value}
include hfuel

theorem value_succ (hread : Json.value limits (fuel + 1) depth text = .ok (content, rest)) :
    HasDistinctKeys content := by
  unfold Json.value at hread
  split at hread
  · obtain ⟨⟨word, tail⟩, -, hcontent⟩ := Traversal.bind_eq_ok_iff.mp hread
    exact (Prod.mk.inj (Except.ok.inj hcontent)).1 ▸ .text word
  · split at hread
    · cases hread
    · split at hread
      · exact (Prod.mk.inj (Except.ok.inj hread)).1 ▸ .list [] (by simp)
      · exact hfuel.items (by simp) hread
  · split at hread
    · cases hread
    · split at hread
      · exact (Prod.mk.inj (Except.ok.inj hread)).1 ▸ .record [] List.nodup_nil (by simp)
      · exact hfuel.members (.record [] List.nodup_nil (by simp)) hread
  · exact hasDistinctKeys_of_atom hread

theorem items_succ {before : List Value} (hbefore : ∀ item ∈ before, HasDistinctKeys item)
    (hread : Json.items limits (fuel + 1) depth before text = .ok (content, rest)) :
    HasDistinctKeys content := by
  unfold Json.items at hread
  obtain ⟨⟨item, tail⟩, hitem, hread⟩ := Traversal.bind_eq_ok_iff.mp hread
  have hitems : ∀ other ∈ item :: before, HasDistinctKeys other :=
    List.forall_mem_cons.mpr ⟨hfuel.value hitem, hbefore⟩
  dsimp only at hread
  split at hread
  · refine (Prod.mk.inj (Except.ok.inj hread)).1 ▸ .list _ fun other hother ↦ ?_
    exact hitems other (List.mem_reverse.mp hother)
  · exact hfuel.items hitems hread
  · exact absurd hread nofun

theorem members_succ {before : List (String × Value)} (hbefore : HasDistinctKeys (.record before))
    (hread : Json.members limits (fuel + 1) depth before text = .ok (content, rest)) :
    HasDistinctKeys content := by
  unfold Json.members at hread
  split at hread
  · obtain ⟨⟨key, tail⟩, -, hread⟩ := Traversal.bind_eq_ok_iff.mp hread
    dsimp only at hread
    split at hread
    · obtain ⟨⟨member, tail⟩, hmember, hread⟩ := Traversal.bind_eq_ok_iff.mp hread
      have hfields : HasDistinctKeys (.record (assign before key member)) :=
        hasDistinctKeys_assign hbefore (hfuel.value hmember)
      dsimp only at hread
      split at hread
      · exact (Prod.mk.inj (Except.ok.inj hread)).1 ▸ hfields
      · exact hfuel.members hfields hread
      · exact absurd hread nofun
    · exact absurd hread nofun
  · exact absurd hread nofun

end KeepsKeysDistinct

theorem keepsKeysDistinct (limits : Limits) (fuel : ℕ) : KeepsKeysDistinct limits fuel := by
  induction fuel with
  | zero => exact keepsKeysDistinct_zero
  | succ fuel ih => exact ⟨ih.value_succ, ih.items_succ, ih.members_succ⟩

/-- No record of what is read from a text has a key twice. -/
theorem hasDistinctKeys_read {text : List Char} {content : Value}
    (hread : read limits text = .ok content) : content.HasDistinctKeys := by
  unfold read at hread
  split at hread
  · exact absurd hread nofun
  · split at hread
    · exact absurd hread nofun
    · rename_i hvalue
      split at hread
      · exact Except.ok.inj hread ▸ (keepsKeysDistinct limits _).value hvalue
      · exact absurd hread nofun

end Json

end PixelFont
