import Mathlib.Data.List.Basic

/-!
Steps that may fail, taken for every item of a list in turn. Where no step fails, the whole gives
what the steps give, item by item; in particular, items that were written one by one are read back.
-/

set_option autoImplicit false

namespace PixelFont.Traversal

variable {ε α β : Type}

/-- Two steps succeed together exactly if the second one does on what the first one gives. -/
theorem bind_eq_ok_iff {result : Except ε α} {f : α → Except ε β} {content : β} :
    (result >>= f) = .ok content ↔ ∃ x, result = .ok x ∧ f x = .ok content := by
  cases result <;> simp [bind, Except.bind]

theorem mapM_eq_ok {f : α → Except ε β} {g : α → β} {items : List α}
    (h : ∀ item ∈ items, f item = .ok (g item)) : items.mapM f = .ok (items.map g) := by
  induction items with
  | nil => rfl
  | cons item items ih =>
    have hrest := ih fun other hother ↦ h other (List.mem_cons_of_mem _ hother)
    rw [List.mapM_cons, h item List.mem_cons_self, hrest]
    rfl

/-- What the steps give, without naming it beforehand. -/
theorem mapM_eq_ok_filterMap {f : α → Except ε β} {items : List α}
    (h : ∀ item ∈ items, ∃ result, f item = .ok result) :
    items.mapM f = .ok (items.filterMap fun item ↦ (f item).toOption) := by
  induction items with
  | nil => rfl
  | cons item items ih =>
    obtain ⟨result, hresult⟩ := h item List.mem_cons_self
    have hrest := ih fun other hother ↦ h other (List.mem_cons_of_mem _ hother)
    have hoption : (f item).toOption = some result := by rw [hresult]; rfl
    rw [List.mapM_cons, hresult, hrest, List.filterMap_cons, hoption]
    rfl

/-- Where the whole gives something, every step does. -/
theorem map_ok_of_mapM_eq_ok {f : α → Except ε β} {items : List α} {results : List β}
    (h : items.mapM f = .ok results) : results.map Except.ok = items.map f := by
  induction items generalizing results with
  | nil => rw [← Except.ok.inj h]; rfl
  | cons item items ih =>
    rw [List.mapM_cons, bind_eq_ok_iff] at h
    obtain ⟨result, hresult, hrest⟩ := h
    obtain ⟨others, hothers, hsame⟩ := bind_eq_ok_iff.mp hrest
    rw [← Except.ok.inj hsame, List.map_cons, List.map_cons, hresult, ih hothers]

/-- Items are kept by the answers found for them as they are by the question itself. -/
theorem map_filter_zip_map (keeps : α → Bool) (items : List α) :
    ((items.zip (items.map keeps)).filter (·.2)).map (·.1) = items.filter keeps := by
  induction items with
  | nil => rfl
  | cons item items ih =>
    rw [List.map_cons, List.zip_cons_cons, List.filter_cons, List.filter_cons]
    split
    · rw [List.map_cons, ih]
    · exact ih

theorem toOption_eq_some_iff {result : Except ε α} {content : α} :
    result.toOption = some content ↔ result = .ok content := by
  cases result <;> simp [Except.toOption]

/-- Going on with what a step gives fails as the step does. -/
theorem map_eq_error_iff {f : α → β} {result : Except ε α} {error : ε} :
    result.map f = .error error ↔ result = .error error := by
  cases result <;> simp [Except.map]

theorem map_eq_ok_iff {f : α → β} {result : Except ε α} {content : β} :
    result.map f = .ok content ↔ ∃ x, result = .ok x ∧ f x = content := by
  cases result <;> simp [Except.map]

/-- Steps fail together as the first one does that fails. -/
theorem mapM_eq_error_of_first {f : α → Except ε β} {before after : List α} {item : α} {error : ε}
    (hbefore : ∀ earlier ∈ before, ∃ result, f earlier = .ok result)
    (hitem : f item = .error error) : (before ++ item :: after).mapM f = .error error := by
  induction before with
  | nil =>
    rw [List.nil_append, List.mapM_cons, hitem]
    rfl
  | cons earlier before ih =>
    obtain ⟨⟨result, hresult⟩, hrest⟩ := List.forall_mem_cons.mp hbefore
    rw [List.cons_append, List.mapM_cons, hresult, ih hrest]
    rfl

/-- Steps fail together exactly as the first one does that fails. -/
theorem mapM_eq_error_iff {f : α → Except ε β} {items : List α} {error : ε} :
    items.mapM f = .error error ↔
      ∃ before item after, items = before ++ item :: after ∧
        (∀ earlier ∈ before, ∃ result, f earlier = .ok result) ∧ f item = .error error := by
  constructor
  · intro herror
    induction items with
    | nil => cases herror
    | cons item items ih =>
      cases hitem : f item with
      | error found =>
        rw [List.mapM_cons, hitem] at herror
        obtain rfl := Except.error.inj herror
        exact ⟨[], item, items, rfl, List.forall_mem_nil _, hitem⟩
      | ok result =>
        cases hrest : items.mapM f with
        | ok results =>
          rw [List.mapM_cons, hitem, hrest] at herror
          cases herror
        | error found =>
          rw [List.mapM_cons, hitem, hrest] at herror
          obtain ⟨before, failed, after, rfl, hbefore, hfailed⟩ := ih (hrest.trans herror)
          exact ⟨item :: before, failed, after, rfl,
            List.forall_mem_cons.mpr ⟨⟨result, hitem⟩, hbefore⟩, hfailed⟩
  · rintro ⟨before, item, after, rfl, hbefore, hitem⟩
    exact mapM_eq_error_of_first hbefore hitem

/-- Steps fail together exactly if one of them does. -/
theorem exists_mapM_eq_error_iff {f : α → Except ε β} {items : List α} :
    (∃ error, items.mapM f = .error error) ↔ ∃ item ∈ items, ∃ error, f item = .error error := by
  constructor
  · rintro ⟨error, herror⟩
    obtain ⟨before, item, after, rfl, -, hitem⟩ := mapM_eq_error_iff.mp herror
    exact ⟨item, by simp, error, hitem⟩
  · rintro ⟨item, hitem, error, herror⟩
    by_contra hnone
    cases hwhole : items.mapM f with
    | error found => exact hnone ⟨found, hwhole⟩
    | ok results =>
      have hmem : f item ∈ items.map f := List.mem_map_of_mem hitem
      rw [← map_ok_of_mapM_eq_ok hwhole, herror] at hmem
      simp at hmem

/-- Items written one by one are read one by one as what is kept of them. -/
theorem mapM_map_eq_some_map {γ : Type} {write : α → β} {read : β → Option γ} {g : α → γ}
    {items : List α} (hread : ∀ item ∈ items, read (write item) = some (g item)) :
    (items.map write).mapM read = some (items.map g) := by
  induction items with
  | nil => rfl
  | cons item items ih =>
    rw [List.forall_mem_cons] at hread
    rw [List.map_cons, List.mapM_cons, hread.1, ih hread.2]
    rfl

/-- Items written one by one read back one by one. -/
theorem mapM_map_eq_some {write : α → β} {read : β → Option α}
    (hread : ∀ item, read (write item) = some item) (items : List α) :
    (items.map write).mapM read = some items := by
  rw [mapM_map_eq_some_map (g := id) fun item _ ↦ hread item, List.map_id]

/-! ### Steps that all give something -/

section Total

variable {f : α → Option β} {items : List α} (hsome : ∀ item ∈ items, (f item).isSome = true)
include hsome

theorem map_some_filterMap : (items.filterMap f).map some = items.map f := by
  induction items with
  | nil => rfl
  | cons item items ih =>
    rw [List.forall_mem_cons] at hsome
    obtain ⟨result, hresult⟩ := Option.isSome_iff_exists.mp hsome.1
    rw [List.filterMap_cons_some hresult, List.map_cons, List.map_cons, ih hsome.2, hresult]

theorem length_filterMap : (items.filterMap f).length = items.length := by
  have hlength := congrArg List.length (map_some_filterMap hsome)
  rwa [List.length_map, List.length_map] at hlength

/-- Each item is found again by its place. -/
theorem getElem?_filterMap (i : ℕ) : (items.filterMap f)[i]? = items[i]?.bind f := by
  have hplace := congrArg (fun results ↦ results[i]?.join) (map_some_filterMap hsome)
  rw [List.getElem?_map, List.getElem?_map] at hplace
  cases hfound : (items.filterMap f)[i]? <;> cases hitem : items[i]?
  all_goals
    rw [hfound, hitem] at hplace
    exact hplace

end Total

end PixelFont.Traversal
