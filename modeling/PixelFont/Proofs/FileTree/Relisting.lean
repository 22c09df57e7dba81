import Mathlib.Data.List.Nodup
import PixelFont.Proofs.FileTree.Directory
import PixelFont.Proofs.Grouping

/-!
Trees that differ only in the order in which their directories are listed. In a well-formed tree
nothing is entered twice, and putting something at a place keeps it well formed
(`IsWellFormed.put`). What stands at a place is then told by the entries whatever their order
(`IsWellFormed.node?_eq_some_iff`), so that looking up and reading paths gives the same in every
relisting (`IsRelisting.locate_eq`, `IsRelisting.read_eq`), while the children of a directory come
in another order (`IsRelisting.children_perm`).
-/

set_option autoImplicit false

namespace PixelFont.FileTree

/-- A tree in which no place is entered twice and every name is one that a file can have. -/
structure IsWellFormed (tree : FileTree) : Prop where
  nodup : (tree.entries.map Prod.fst).Nodup
  named : ∀ entry ∈ tree.entries, ∀ name ∈ entry.1, IsFileName name

/-- A tree with the same entries as another, in any order. -/
structure IsRelisting (relisted tree : FileTree) : Prop where
  workingDirectory_eq : relisted.workingDirectory = tree.workingDirectory
  entries_perm : relisted.entries.Perm tree.entries

instance : DecidablePred IsFileName := fun name ↦
  decidable_of_iff (isPathComponent name = true ∧ name ≠ ".." ∧ '\x00' ∉ name.toList ∧
      name.utf8ByteSize ≤ maxNameSize)
    ⟨fun h ↦ ⟨h.1, h.2.1, h.2.2.1, h.2.2.2⟩,
      fun h ↦ ⟨h.component, h.ne_parent, h.not_nul, h.size_le⟩⟩

variable {tree relisted : FileTree} {place : Place} {name : String} {node : FileNode}

/-! ### Well-formed trees -/

namespace IsWellFormed

/-- A tree stays well formed if something is put at a place of names that files can have. -/
theorem put (hwell : tree.IsWellFormed) (hplace : ∀ name ∈ place, IsFileName name)
    (node : FileNode) : (tree.put place node).IsWellFormed := by
  unfold FileTree.put
  split
  · refine ⟨?_, List.forall_mem_map.mpr fun entry hentry ↦ ?_⟩
    · have hkeys : Prod.fst ∘ (fun entry : Place × FileNode ↦
          if entry.1 == place then (place, node) else entry) = Prod.fst := by
        funext entry
        by_cases hentry : entry.1 = place <;> simp [hentry]
      rw [List.map_map, hkeys]
      exact hwell.nodup
    · split
      · exact hplace
      · exact hwell.named entry hentry
  · rename_i hany
    refine ⟨?_, List.forall_mem_append.mpr ⟨hwell.named, by simpa using hplace⟩⟩
    have hfresh : place ∉ tree.entries.map Prod.fst := by
      rintro hmem
      obtain ⟨entry, hentry, rfl⟩ := List.mem_map.mp hmem
      exact hany (List.any_eq_true.mpr ⟨entry, hentry, beq_self_eq_true _⟩)
    rw [List.map_append, List.map_singleton, ← List.concat_eq_append]
    exact hwell.nodup.concat hfresh

/-- So it does if directories are put on the way to such a place. -/
theorem add (hwell : tree.IsWellFormed) (hplace : ∀ name ∈ place, IsFileName name)
    (node : FileNode) : (tree.add place node).IsWellFormed := by
  have hparents (depths : List ℕ) (opened : FileTree) (hopened : opened.IsWellFormed) :
      (depths.foldl (fun tree depth ↦
        if (tree.node? (place.take depth)).isNone then tree.put (place.take depth) .directory
        else tree) opened).IsWellFormed := by
    induction depths generalizing opened with
    | nil => exact hopened
    | cons depth depths ih =>
      rw [List.foldl_cons]
      refine ih _ ?_
      split
      · exact hopened.put (fun name hname ↦ hplace name (List.mem_of_mem_take hname)) _
      · exact hopened
  exact (hparents _ tree hwell).put hplace node

variable (hwell : tree.IsWellFormed)
include hwell

/-- What stands at a place is what is entered for it. -/
theorem node?_eq_some_iff (hplace : place ≠ []) :
    tree.node? place = some node ↔ (place, node) ∈ tree.entries := by
  rw [node?, if_neg hplace, Option.map_eq_some_iff]
  simp only [Grouping.find?_key_eq_some_iff hwell.nodup]
  constructor
  · rintro ⟨entry, ⟨hentry, rfl⟩, rfl⟩
    exact hentry
  · exact fun hentry ↦ ⟨_, ⟨hentry, rfl⟩, rfl⟩

/-- The children of a directory are what stands at names in it. -/
theorem mem_children_iff :
    (name, node) ∈ tree.children place ↔ tree.node? (place ++ [name]) = some node := by
  rw [hwell.node?_eq_some_iff (by simp), children, List.mem_filterMap]
  constructor
  · rintro ⟨⟨key, found⟩, hentry, hchild⟩
    rcases List.eq_nil_or_concat' key with rfl | ⟨front, last, rfl⟩
    · exact absurd hchild (by simp)
    · obtain ⟨rfl, rfl, rfl⟩ : front = place ∧ last = name ∧ found = node := by
        simpa using hchild
      exact hentry
  · intro hentry
    exact ⟨_, hentry, by simp⟩

/-- No two children of a directory share a name. -/
theorem nodup_children : ((tree.children place).map Prod.fst).Nodup := by
  have hplaces : ((tree.children place).map fun child ↦ place ++ [child.1]).Sublist
      (tree.entries.map Prod.fst) := by
    rw [children, List.map_filterMap]
    induction tree.entries with
    | nil => exact List.Sublist.refl _
    | cons entry entries ih =>
      obtain ⟨key, found⟩ := entry
      rcases List.eq_nil_or_concat' key with rfl | ⟨front, last, rfl⟩
      · rw [List.filterMap_cons_none rfl]
        exact ih.cons _
      · by_cases hfront : front = place
        · simpa [hfront] using ih
        · simpa [hfront] using ih.cons _
  have hnodup : ((tree.children place).map ((place ++ [·]) ∘ Prod.fst)).Nodup :=
    hwell.nodup.sublist hplaces
  rw [← List.map_map] at hnodup
  exact hnodup.of_map _

theorem isFileName_of_mem_children (hname : name ∈ (tree.children place).map Prod.fst) :
    IsFileName name := by
  obtain ⟨⟨_, node⟩, hchild, rfl⟩ := List.mem_map.mp hname
  have hentry := (hwell.node?_eq_some_iff (by simp)).mp (hwell.mem_children_iff.mp hchild)
  exact hwell.named _ hentry _ (by simp)

end IsWellFormed

/-! ### Relistings -/

namespace IsRelisting

variable (hrelisted : relisted.IsRelisting tree)
include hrelisted

theorem isWellFormed (hwell : tree.IsWellFormed) : relisted.IsWellFormed where
  nodup := (hrelisted.entries_perm.map _).nodup_iff.mpr hwell.nodup
  named := fun entry hentry ↦ hwell.named entry (hrelisted.entries_perm.subset hentry)

theorem children_perm (place : Place) : (relisted.children place).Perm (tree.children place) :=
  hrelisted.entries_perm.filterMap _

variable (hwell : tree.IsWellFormed)
include hwell

theorem node?_eq (place : Place) : relisted.node? place = tree.node? place := by
  by_cases hplace : place = []
  · rw [node?, node?, if_pos hplace, if_pos hplace]
  · refine Option.ext fun node ↦ ?_
    rw [(hrelisted.isWellFormed hwell).node?_eq_some_iff hplace, hwell.node?_eq_some_iff hplace]
    exact hrelisted.entries_perm.mem_iff

theorem barrier?_eq (kind : Barriers → Option Barrier) (place : Place) :
    relisted.barrier? kind place = tree.barrier? kind place :=
  barrier?_eq_of_node?_eq (hrelisted.node?_eq hwell place) kind

theorem unlessBarred_eq {α : Type} (kind : Barriers → Option Barrier) (place : Place)
    (outcome : Except FileFault α) :
    relisted.unlessBarred kind place outcome = tree.unlessBarred kind place outcome := by
  rw [unlessBarred, unlessBarred, hrelisted.barrier?_eq hwell]

theorem walk_eq (directory : Place) (names : List String) :
    relisted.walk directory names = tree.walk directory names := by
  induction names generalizing directory with
  | nil => rfl
  | cons name names ih =>
    unfold walk
    rw [hrelisted.unlessBarred_eq hwell]
    simp only [hrelisted.node?_eq hwell, ih]

theorem locate_eq (path : Path) : relisted.locate path = tree.locate path := by
  have hstart : relisted.start path = tree.start path := by
    rw [start, start, hrelisted.workingDirectory_eq]
  rw [locate, locate, hstart, hrelisted.unlessBarred_eq hwell, hrelisted.walk_eq hwell]

theorem read_eq (path : Path) : relisted.read path = tree.read path := by
  rw [read, read, hrelisted.locate_eq hwell]
  simp only [hrelisted.node?_eq hwell, hrelisted.unlessBarred_eq hwell]

theorem leadsTo_iff {directory : Path} {barriers : Barriers} :
    relisted.LeadsTo directory place barriers ↔ tree.LeadsTo directory place barriers := by
  have hlocate := hrelisted.locate_eq hwell directory
  have hnode := hrelisted.node?_eq hwell place
  exact ⟨fun h ↦ ⟨hlocate ▸ h.locate_eq, hnode ▸ h.node?_eq⟩,
    fun h ↦ ⟨hlocate.trans h.locate_eq, hnode.trans h.node?_eq⟩⟩

end IsRelisting

end PixelFont.FileTree
