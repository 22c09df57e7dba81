import PixelFont.Path
import PixelFont.Proofs.Text.Joining
import PixelFont.Proofs.Text.Ordering

/-!
The text of a path denotes the path. A component in normal form holds no slash and is neither
empty nor one point, so that splitting the text at its slashes finds the components, and the
slashes at the start tell the root. For the same reason the parts that paths are compared by tell
the path, so that paths have one order only (`Path.eq_of_pairwise_precedes`).
-/

set_option autoImplicit false

namespace PixelFont

namespace Path

theorem isPathComponent_iff {component : String} :
    isPathComponent component = true ↔
      component ≠ "" ∧ component ≠ "." ∧ '/' ∉ component.toList := by
  simp [isPathComponent, and_assoc]

variable {components : List String}

/-- Components joined by slashes are found by splitting, what is empty being dropped. -/
theorem filter_splitOn_intercalate (hnormal : components.all isPathComponent = true) :
    ((("/".intercalate components).toList.splitOn '/').map String.ofList).filter isPathComponent =
      components := by
  rw [List.all_eq_true] at hnormal
  by_cases hnil : components = []
  · subst hnil
    rfl
  · rw [Text.splitOn_intercalate rfl hnil fun component hmem ↦
      (isPathComponent_iff.mp (hnormal component hmem)).2.2]
    have hback : String.ofList ∘ String.toList = id := funext fun _ ↦ String.ofList_toList
    rw [List.map_map, hback, List.map_id]
    exact List.filter_eq_self.mpr hnormal

theorem filter_splitOn_slash (rest : List Char) :
    ((('/' :: rest).splitOn '/').map String.ofList).filter isPathComponent =
      ((rest.splitOn '/').map String.ofList).filter isPathComponent := by
  rw [List.splitOn_cons_eq_if_modifyHead, if_pos (beq_self_eq_true '/'), List.map_cons]
  rfl

/-- Components joined by slashes do not begin with one. -/
theorem takeWhile_intercalate (hnormal : components.all isPathComponent = true) :
    ("/".intercalate components).toList.takeWhile (· == '/') = [] := by
  cases components with
  | nil => rfl
  | cons component others =>
    obtain ⟨hne, -, hslash⟩ := isPathComponent_iff.mp
      (List.all_eq_true.mp hnormal component List.mem_cons_self)
    obtain ⟨c, rest, hcharacters⟩ :=
      List.exists_cons_of_ne_nil fun hnil ↦ hne (String.toList_eq_nil_iff.mp hnil)
    have hc : c ≠ '/' := fun h ↦ hslash (by rw [hcharacters, h]; exact List.mem_cons_self)
    have hbegins : ∃ tail, ("/".intercalate (component :: others)).toList = c :: tail := by
      cases others with
      | nil => exact ⟨rest, by rw [String.intercalate_singleton, hcharacters]⟩
      | cons other more =>
        rw [String.intercalate_cons_cons, String.append_assoc, String.toList_append, hcharacters]
        exact ⟨_, List.cons_append⟩
    obtain ⟨tail, htail⟩ := hbegins
    rw [htail]
    exact List.takeWhile_cons_of_neg (by simpa using hc)

/-- The text of a path denotes the path. -/
theorem ofString_toText (path : Path) : ofString path.toText = path := by
  obtain ⟨root, components, hnormal⟩ := path
  have hfilter := filter_splitOn_intercalate hnormal
  have htake := takeWhile_intercalate hnormal
  by_cases hhere : root = .none ∧ components = []
  · obtain ⟨rfl, rfl⟩ := hhere
    have hhere : ofString "." = here := by decide
    exact hhere
  · simp only [ofString, toText, hhere, if_false, ofComponents, String.toList_append,
      Path.mk.injEq]
    generalize ("/".intercalate components).toList = joined at hfilter htake
    cases root with
    | none => simp [rootText, rootOf, hfilter, htake]
    | slash => simp [rootText, rootOf, hfilter, htake, filter_splitOn_slash]
    | doubleSlash => simp [rootText, rootOf, hfilter, htake, filter_splitOn_slash]

/-- The name in a path of one component is the component. -/
theorem name_ofString {component : String} (hcomponent : isPathComponent component = true) :
    (ofString component).name = component := by
  have hslash : '/' ∉ component.toList := (isPathComponent_iff.mp hcomponent).2.2
  have hsplit : ((component.toList.splitOn '/').map String.ofList).filter isPathComponent =
      [component] := by
    rw [List.splitOn_eq_singleton hslash, List.map_singleton, String.ofList_toList,
      List.filter_cons_of_pos hcomponent, List.filter_nil]
  show ((((component.toList.splitOn '/').map String.ofList).filter isPathComponent).getLast?).getD
    "" = component
  rw [hsplit]
  rfl

/-- The name in a path holds no slash. -/
theorem slash_notMem_name (path : Path) : '/' ∉ path.name.toList := by
  unfold name
  cases hlast : path.components.getLast? with
  | none => exact List.not_mem_nil
  | some component =>
    have hnormal := List.all_eq_true.mp path.normal component (List.mem_of_getLast? hlast)
    exact (isPathComponent_iff.mp hnormal).2.2

/-! ### The order of paths -/

theorem rootText_notMem_components (path : Path) {root : PathRoot} (hroot : root ≠ .none) :
    rootText root ∉ path.components := by
  intro hmem
  have hnormal := List.all_eq_true.mp path.normal _ hmem
  cases root with
  | none => exact hroot rfl
  | slash => exact absurd hnormal (by decide)
  | doubleSlash => exact absurd hnormal (by decide)

theorem parts_injective : Function.Injective parts := by
  have hrelative (path other : Path) (hroot : other.root ≠ .none) :
      path.components ≠ rootText other.root :: other.components := by
    intro hsame
    refine rootText_notMem_components path hroot ?_
    rw [hsame]
    exact List.mem_cons_self
  have hslashes : rootText .slash ≠ rootText .doubleSlash := by decide
  rintro ⟨root, components, hnormal⟩ ⟨otherRoot, others, hothers⟩ hparts
  cases root <;> cases otherRoot
  case none.none | slash.slash | doubleSlash.doubleSlash =>
    simpa [parts, isAbsolute] using hparts
  case slash.doubleSlash => exact absurd (List.cons.inj hparts).1 hslashes
  case doubleSlash.slash => exact absurd (List.cons.inj hparts).1.symm hslashes
  case none.slash | none.doubleSlash =>
    exact absurd hparts (hrelative ⟨.none, components, hnormal⟩ ⟨_, others, hothers⟩ nofun)
  case slash.none | doubleSlash.none =>
    exact absurd hparts.symm (hrelative ⟨.none, others, hothers⟩ ⟨_, components, hnormal⟩ nofun)

variable {first second third : Path}

theorem precedes_total (first second : Path) :
    (first.precedes second || second.precedes first) = true := by
  rw [precedes, precedes]
  cases hbefore : Text.listOfTextsBefore second.parts first.parts with
  | false => rfl
  | true => rw [Text.listOfTextsBefore_asymm hbefore]; rfl

theorem precedes_trans (hfirst : first.precedes second = true)
    (hsecond : second.precedes third = true) : first.precedes third = true := by
  rw [precedes, Bool.not_eq_true'] at hfirst hsecond ⊢
  exact Text.listOfTextsBefore_eq_false_trans hfirst hsecond

/-- Two paths come before each other only if they are the same. -/
theorem eq_of_precedes (hfirst : first.precedes second = true)
    (hsecond : second.precedes first = true) : first = second := by
  rw [precedes, Bool.not_eq_true'] at hfirst hsecond
  by_contra hne
  rcases Text.listOfTextsBefore_total (parts_injective.ne hne) with hbefore | hbefore
  · exact absurd (hbefore.symm.trans hsecond) nofun
  · exact absurd (hbefore.symm.trans hfirst) nofun

theorem pairwise_mergeSort_precedes (paths : List Path) :
    (paths.mergeSort precedes).Pairwise (precedes · · = true) := by
  have htrans (first second third : Path) : first.precedes second = true →
      second.precedes third = true → first.precedes third = true := precedes_trans
  exact List.pairwise_mergeSort htrans precedes_total paths

/-- Paths are put in order in one way only. -/
theorem eq_of_pairwise_precedes {paths others : List Path} (hperm : paths.Perm others)
    (hpaths : paths.Pairwise (precedes · · = true))
    (hothers : others.Pairwise (precedes · · = true)) : paths = others :=
  hperm.eq_of_pairwise (fun _ _ _ _ ↦ eq_of_precedes) hpaths hothers

end Path

end PixelFont
