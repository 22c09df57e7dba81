import Mathlib.Data.List.Basic
import PixelFont.FileTree.Access
import PixelFont.Proofs.Path
import PixelFont.Proofs.Traversal

/-!
What accesses to a tree of files tell and change. An access that a barrier keeps from going on fails
with it (`unlessBarred_eq_ok_iff`, `unlessBarred_eq_error_iff`). What a path leads to can be told
unless looking the path up fails, and not because nothing is there (`nodeAt_eq_error_iff`). Making
sure that a file is there changes what stands at the place of its path alone
(`locate_of_node?_touch_ne`).
-/

set_option autoImplicit false

namespace PixelFont

namespace FileTree

variable {tree : FileTree} {path : Path}

/-! ### Barriers -/

section Barriers

variable {α : Type} {kind : Barriers → Option Barrier} {place : Place}
  {outcome : Except FileFault α}

theorem unlessBarred_of_eq_none (hopen : tree.barrier? kind place = none) :
    tree.unlessBarred kind place outcome = outcome := by
  rw [unlessBarred, hopen]

theorem unlessBarred_of_eq_some {barrier : Barrier}
    (hbarrier : tree.barrier? kind place = some barrier) :
    tree.unlessBarred kind place outcome = .error (.barred barrier) := by
  rw [unlessBarred, hbarrier]

theorem unlessBarred_eq_ok_iff {result : α} :
    tree.unlessBarred kind place outcome = .ok result ↔
      tree.barrier? kind place = none ∧ outcome = .ok result := by
  unfold unlessBarred
  cases tree.barrier? kind place <;> simp

theorem unlessBarred_eq_error_iff {fault : FileFault} :
    tree.unlessBarred kind place outcome = .error fault ↔
      (∃ barrier, tree.barrier? kind place = some barrier ∧ fault = .barred barrier) ∨
        tree.barrier? kind place = none ∧ outcome = .error fault := by
  unfold unlessBarred
  cases tree.barrier? kind place <;> simp [eq_comm]

/-- The barriers at a place are those of what stands there. -/
theorem barrier?_of_node?_eq {node : FileNode} (hnode : tree.node? place = some node)
    (kind : Barriers → Option Barrier) : tree.barrier? kind place = kind node.barriers := by
  rw [barrier?, hnode, Option.bind_some]

theorem barrier?_eq_of_node?_eq {other : FileTree} (hnode : other.node? place = tree.node? place)
    (kind : Barriers → Option Barrier) : other.barrier? kind place = tree.barrier? kind place := by
  rw [barrier?, barrier?, hnode]

/-- What looks a path up fails otherwise than by the null character if every step does. -/
theorem unlessBarred_ne_nulCharacter (h : outcome ≠ .error .nulCharacter) :
    tree.unlessBarred kind place outcome ≠ .error .nulCharacter := by
  rw [ne_eq, unlessBarred_eq_error_iff]
  rintro (⟨barrier, -, hbarrier⟩ | ⟨-, hnul⟩)
  · cases hbarrier
  · exact h hnul

end Barriers

/-! ### Looking up -/

/-- A name that is too long leads nowhere from a directory in which names can be looked up. -/
theorem locate_eq_nameTooLong {name : String} (hname : ∀ c ∈ name.toList, c ≠ '/' ∧ c ≠ '\x00')
    (hlong : maxNameSize < name.utf8ByteSize) {root : PathRoot}
    (hopen : tree.barrier? (·.lookup) (tree.start (Path.ofComponents root [name])) = none) :
    tree.locate (Path.ofComponents root [name]) = .error .nameTooLong := by
  have hne (other : String) (hshort : other.utf8ByteSize ≤ maxNameSize) : name ≠ other := by
    rintro rfl
    omega
  have hcomponents : (Path.ofComponents root [name]).components = [name] :=
    List.filter_cons_of_pos (Path.isPathComponent_iff.mpr
      ⟨hne _ (by decide), hne _ (by decide), fun hslash ↦ (hname _ hslash).1 rfl⟩)
  have hnul : ¬ ([name].any fun name ↦ name.toList.contains '\x00') = true := by
    simpa using fun hnul ↦ (hname _ hnul).2 rfl
  unfold locate
  rw [hcomponents, if_neg hnul]
  split
  · rfl
  · rw [unlessBarred_of_eq_none hopen, walk, unlessBarred_of_eq_none hopen,
      if_neg (hne _ (by decide)), if_pos hlong]

theorem nodeAt_eq_error_iff {fault : FileFault} :
    tree.nodeAt path = .error fault ↔
      tree.locate path = .error fault ∧ fault.isAbsence = false := by
  unfold nodeAt
  cases tree.locate path with
  | ok place => simp
  | error found =>
    simp only [Except.error.injEq]
    by_cases habsence : found.isAbsence = true
    · rw [if_pos habsence]
      refine iff_of_false nofun ?_
      rintro ⟨rfl, hpresent⟩
      exact Bool.noConfusion (habsence.symm.trans hpresent)
    · rw [if_neg habsence, Except.error.injEq]
      exact ⟨fun hfound ↦ ⟨hfound, hfound ▸ Bool.eq_false_iff.mpr habsence⟩, And.left⟩

/-- What is asked of what a path leads to cannot be told if the path cannot be looked up. -/
theorem map_nodeAt_eq_error_iff {α : Type} {f : Option FileNode → α} {fault : FileFault} :
    (tree.nodeAt path).map f = .error fault ↔
      tree.locate path = .error fault ∧ fault.isAbsence = false := by
  rw [Traversal.map_eq_error_iff, nodeAt_eq_error_iff]

theorem isDirectory_eq_error_iff {fault : FileFault} :
    tree.isDirectory path = .error fault ↔
      tree.locate path = .error fault ∧ fault.isAbsence = false :=
  map_nodeAt_eq_error_iff

theorem isFile_eq_error_iff {fault : FileFault} :
    tree.isFile path = .error fault ↔
      tree.locate path = .error fault ∧ fault.isAbsence = false :=
  map_nodeAt_eq_error_iff

/-- What a path leads to answers a question with yes only if something stands there. -/
theorem map_any_nodeAt_eq_true_iff {asks : FileNode → Bool} :
    ((tree.nodeAt path).map fun node ↦ node.any asks) = .ok true ↔
      ∃ place node, tree.locate path = .ok place ∧ tree.node? place = some node ∧
        asks node = true := by
  unfold nodeAt
  cases tree.locate path with
  | ok place => cases hnode : tree.node? place <;> simp [Except.map, hnode]
  | error found => cases habsence : found.isAbsence <;> simp [Except.map, habsence]

/-- A path leads to a directory if it leads to a place where one stands. -/
theorem isDirectory_eq_true_iff :
    tree.isDirectory path = .ok true ↔
      ∃ place barriers, tree.locate path = .ok place ∧
        tree.node? place = some (.directory barriers) := by
  rw [isDirectory, map_any_nodeAt_eq_true_iff]
  constructor
  · rintro ⟨place, node, hlocate, hnode, hasks⟩
    cases node with
    | directory barriers => exact ⟨place, barriers, hlocate, hnode⟩
    | file content barriers => cases hasks
  · rintro ⟨place, barriers, hlocate, hnode⟩
    exact ⟨place, _, hlocate, hnode, rfl⟩

/-- A path leads to a file if it leads to a place where one stands. -/
theorem isFile_eq_true_iff :
    tree.isFile path = .ok true ↔
      ∃ place content barriers, tree.locate path = .ok place ∧
        tree.node? place = some (.file content barriers) := by
  rw [isFile, map_any_nodeAt_eq_true_iff]
  constructor
  · rintro ⟨place, node, hlocate, hnode, hasks⟩
    cases node with
    | directory barriers => cases hasks
    | file content barriers => exact ⟨place, content, barriers, hlocate, hnode⟩
  · rintro ⟨place, content, barriers, hlocate, hnode⟩
    exact ⟨place, _, hlocate, hnode, rfl⟩

theorem walk_ne_nulCharacter (names : List String) (directory : Place) :
    tree.walk directory names ≠ .error .nulCharacter := by
  induction names generalizing directory with
  | nil => simp [walk]
  | cons name names ih =>
    refine unlessBarred_ne_nulCharacter ?_
    split_ifs
    · exact ih _
    · simp
    · split
      · simp
      · split
        · simp
        · simp
        · exact ih _

/-- A path is refused for its characters exactly if one of its names holds the null character. -/
theorem locate_eq_nulCharacter_iff :
    tree.locate path = .error .nulCharacter ↔ ∃ name ∈ path.components, '\x00' ∈ name.toList := by
  have hany : (path.components.any fun name ↦ name.toList.contains '\x00') = true ↔
      ∃ name ∈ path.components, '\x00' ∈ name.toList := by
    simp only [List.any_eq_true, List.contains_iff_mem]
  rw [← hany, locate]
  split
  · rename_i hnul
    exact iff_of_true rfl hnul
  · rename_i hnul
    refine iff_of_false ?_ hnul
    split
    · simp
    · exact unlessBarred_ne_nulCharacter (walk_ne_nulCharacter _ _)

theorem read_eq_nulCharacter_iff :
    tree.read path = .error .nulCharacter ↔ ∃ name ∈ path.components, '\x00' ∈ name.toList := by
  rw [← @locate_eq_nulCharacter_iff tree, read]
  cases tree.locate path with
  | error fault => simp
  | ok place =>
    refine iff_of_false (unlessBarred_ne_nulCharacter ?_) nofun
    split <;> simp

/-! ### Changes -/

/-- Something put at a place stands there. -/
theorem node?_put_self (tree : FileTree) {place : Place} (hplace : place ≠ []) (node : FileNode) :
    (tree.put place node).node? place = some node := by
  unfold put node?
  rw [if_neg hplace]
  split
  · rename_i hany
    generalize tree.entries = entries at hany
    induction entries with
    | nil => simp at hany
    | cons entry entries ih =>
      by_cases hentry : entry.1 = place
      · simp [hentry]
      · have htail : entries.any (·.1 == place) = true := by simpa [hentry] using hany
        simpa [hentry] using ih htail
  · rename_i hnone
    have hfind : tree.entries.find? (·.1 == place) = none := by
      refine List.find?_eq_none.mpr fun entry hentry hkey ↦ hnone ?_
      exact List.any_eq_true.mpr ⟨entry, hentry, hkey⟩
    simp [List.find?_append, hfind]

/-- Putting something at a place leaves the other places alone. -/
theorem node?_put_of_ne (tree : FileTree) {place other : Place} (hother : other ≠ place)
    (node : FileNode) : (tree.put place node).node? other = tree.node? other := by
  have hkey (entry : Place × FileNode) :
      ((if entry.1 == place then (place, node) else entry).1 == other) = (entry.1 == other) := by
    by_cases hentry : entry.1 = place <;> simp [hentry]
  have hfind : (tree.put place node).entries.find? (·.1 == other) =
      tree.entries.find? (·.1 == other) := by
    unfold put
    split
    · simp only [List.find?_map, Function.comp_def, hkey]
      cases hfound : tree.entries.find? (·.1 == other) with
      | none => rfl
      | some entry =>
        have hentry : entry.1 = other := by simpa using List.find?_some hfound
        simp [hentry, hother]
    · simp [List.find?_append, hother.symm]
  rw [node?, node?, hfind]

/-- Putting something at a place changes what stands at this place, if anything. -/
theorem eq_of_node?_create_ne {place other : Place} {node : FileNode} {made : FileTree}
    (hmade : tree.create place node = .ok made) (hchanged : made.node? other ≠ tree.node? other) :
    other = place := by
  obtain ⟨-, hput⟩ := unlessBarred_eq_ok_iff.mp hmade
  rw [← Except.ok.inj hput] at hchanged
  exact of_not_not fun hother ↦ hchanged (node?_put_of_ne tree hother node)

/-- Making sure that the file of a path is there changes what stands at its place, if anything. -/
theorem locate_of_node?_touch_ne {touched : FileTree} (htouched : tree.touch path = .ok touched)
    {place : Place} (hchanged : touched.node? place ≠ tree.node? place) :
    tree.locate path = .ok place := by
  unfold touch at htouched
  cases hfound : tree.locate path with
  | error fault =>
    rw [hfound] at htouched
    cases htouched
  | ok found =>
    simp only [hfound] at htouched
    split at htouched
    · rw [eq_of_node?_create_ne htouched hchanged]
    · cases htouched
    · obtain ⟨-, hsame⟩ := unlessBarred_eq_ok_iff.mp htouched
      rw [Except.ok.inj hsame] at hchanged
      exact absurd rfl hchanged

end FileTree

end PixelFont
