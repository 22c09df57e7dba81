import PixelFont.Proofs.FileTree.Access

/-!
Files directly inside a directory. The path of a name in a directory that is there leads to the
place of that name, unless the directory is barred from being searched (`LeadsTo.locate_child`), and
what stands there is told by the children of the directory (`node?_append_singleton`). Writing a
file that is not there yet in an open directory makes one more child (`LeadsTo.write_child`,
`children_put`) and keeps what led to a directory (`LeadsTo.put`).
-/

set_option autoImplicit false

namespace PixelFont

namespace Path

theorem ofString_of_isPathComponent {name : String} (hname : isPathComponent name = true) :
    (ofString name).root = .none ∧ (ofString name).components = [name] := by
  have hnormal : [name].all isPathComponent = true := by simpa using hname
  have hfilter := filter_splitOn_intercalate hnormal
  have htake := takeWhile_intercalate hnormal
  rw [String.intercalate_singleton] at hfilter htake
  exact ⟨by rw [ofString, htake]; rfl, hfilter⟩

variable {name : String} (hname : isPathComponent name = true) (directory : Path)
include hname

theorem components_child : (directory.child name).components = directory.components ++ [name] := by
  obtain ⟨hroot, hcomponents⟩ := ofString_of_isPathComponent hname
  rw [child, join, isAbsolute, hroot, if_neg (by decide)]
  exact congrArg (directory.components ++ ·) hcomponents

theorem root_child : (directory.child name).root = directory.root := by
  rw [child, join, isAbsolute, (ofString_of_isPathComponent hname).1, if_neg (by decide)]

/-- Files of one directory sort as their names do. -/
theorem precedes_child {other : String} (hother : isPathComponent other = true) :
    (directory.child name).precedes (directory.child other) = !Text.before other name := by
  have hparts (file : String) (hfile : isPathComponent file = true) :
      (directory.child file).parts = directory.parts ++ [file] := by
    rw [parts, parts, isAbsolute, isAbsolute, root_child hfile, components_child hfile]
    split <;> rfl
  have hcommon : ∀ opening : List String,
      Text.listOfTextsBefore (opening ++ [other]) (opening ++ [name]) =
        Text.before other name := by
    intro opening
    induction opening with
    | nil => simp [Text.listOfTextsBefore, Text.listBefore]
    | cons text opening ih =>
      simpa [Text.listOfTextsBefore, Text.listBefore, Text.before_irrefl] using ih
  rw [precedes, hparts name hname, hparts other hother, hcommon]

end Path

namespace FileTree

/-- A name that a file can have. -/
structure IsFileName (name : String) : Prop where
  component : isPathComponent name = true
  ne_parent : name ≠ ".."
  not_nul : '\x00' ∉ name.toList
  size_le : name.utf8ByteSize ≤ maxNameSize

/-- A path leads to a directory at a place, with the barriers that are there, if any. -/
structure LeadsTo (tree : FileTree) (directory : Path) (place : Place) (barriers : Barriers := {}) :
    Prop where
  locate_eq : tree.locate directory = .ok place
  node?_eq : tree.node? place = some (.directory barriers)

variable {tree : FileTree} {directory : Path} {place : Place} {name : String} {barriers : Barriers}

/-! ### Paths -/

theorem locate_eq_ok_iff {path : Path} :
    tree.locate path = .ok place ↔
      (∀ name ∈ path.components, '\x00' ∉ name.toList) ∧
        path.toText.utf8ByteSize ≤ maxPathSize ∧
        tree.barrier? (·.lookup) (tree.start path) = none ∧
        tree.walk (tree.start path) path.components = .ok place := by
  have hnul : (path.components.any fun name ↦ name.toList.contains '\x00') = true ↔
      ¬ ∀ name ∈ path.components, '\x00' ∉ name.toList := by
    simp
  unfold locate
  by_cases hany : (path.components.any fun name ↦ name.toList.contains '\x00') = true
  · rw [if_pos hany]
    exact iff_of_false nofun fun h ↦ hnul.mp hany h.1
  · rw [if_neg hany, and_iff_right (not_not.mp (mt hnul.mpr hany))]
    by_cases hlong : maxPathSize < path.toText.utf8ByteSize
    · rw [if_pos hlong]
      exact iff_of_false nofun fun h ↦ Nat.not_le_of_lt hlong h.1
    · rw [if_neg hlong, and_iff_right (Nat.le_of_not_lt hlong), unlessBarred_eq_ok_iff]

/-- A name after components that lead to a directory leads into it, as far as the directory lets
names be looked up. -/
theorem walk_append_singleton (hname : IsFileName name) {start : Place} {names : List String}
    (hwalk : tree.walk start names = .ok place)
    (hnode : tree.node? place = some (.directory barriers)) :
    tree.walk start (names ++ [name]) =
      tree.unlessBarred (·.lookup) place (.ok (place ++ [name])) := by
  have hlast (start : Place) : tree.walk start [name] =
      tree.unlessBarred (·.lookup) start (.ok (start ++ [name])) := by
    rw [walk, if_neg hname.ne_parent, if_neg (Nat.not_lt_of_le hname.size_le)]
  induction names generalizing start with
  | nil =>
    obtain rfl := Except.ok.inj hwalk
    exact hlast start
  | cons first names ih =>
    rw [List.cons_append]
    unfold walk at hwalk ⊢
    obtain ⟨hopen, hwalk⟩ := unlessBarred_eq_ok_iff.mp hwalk
    rw [unlessBarred_of_eq_none hopen]
    by_cases hparent : first = ".."
    · rw [if_pos hparent] at hwalk ⊢
      exact ih hwalk
    · rw [if_neg hparent] at hwalk ⊢
      by_cases hlong : maxNameSize < first.utf8ByteSize
      · rw [if_pos hlong] at hwalk
        contradiction
      · rw [if_neg hlong] at hwalk ⊢
        cases names with
        | nil =>
          obtain rfl := Except.ok.inj hwalk
          simp only [List.nil_append, hnode, hlast]
        | cons second names =>
          simp only [List.cons_append] at hwalk ⊢ ih
          split at hwalk
          · contradiction
          · contradiction
          · exact ih hwalk

/-- Something in which names can be looked up, put where nothing stood, bars no way. -/
theorem lookup_put_eq_none {node : FileNode} (hnode : node.barriers.lookup = none) {other : Place}
    (hother : tree.node? other = none) (hopen : tree.barrier? (·.lookup) place = none) :
    (tree.put other node).barrier? (·.lookup) place = none := by
  by_cases hplace : place = other
  · subst hplace
    have hroot : place ≠ [] := by
      rintro rfl
      exact Option.some_ne_none _ hother
    exact (barrier?_of_node?_eq (node?_put_self tree hroot node) _).trans hnode
  · rwa [barrier?_eq_of_node?_eq (node?_put_of_ne tree hplace node)]

/-- Where components lead does not depend on places at which nothing stood. -/
theorem walk_put {node : FileNode} (hnode : node.barriers.lookup = none) {other : Place}
    (hother : tree.node? other = none) {start : Place} {names : List String}
    (hwalk : tree.walk start names = .ok place) :
    (tree.put other node).walk start names = .ok place := by
  induction names generalizing start with
  | nil => exact hwalk
  | cons name names ih =>
    unfold walk at hwalk ⊢
    obtain ⟨hopen, hwalk⟩ := unlessBarred_eq_ok_iff.mp hwalk
    rw [unlessBarred_of_eq_none (lookup_put_eq_none hnode hother hopen)]
    split_ifs at hwalk ⊢ with hparent hlong
    · exact ih hwalk
    · cases names with
      | nil => exact hwalk
      | cons second names =>
        dsimp only at hwalk ⊢
        cases hthere : tree.node? (start ++ [name]) with
        | none =>
          rw [hthere] at hwalk
          cases hwalk
        | some found =>
          have hne : start ++ [name] ≠ other := by
            rintro rfl
            exact Option.some_ne_none _ (hthere.symm.trans hother)
          rw [hthere] at hwalk
          rw [node?_put_of_ne tree hne, hthere]
          cases found with
          | directory barriers => exact ih hwalk
          | file content barriers => cases hwalk

theorem workingDirectory_put (tree : FileTree) (place : Place) (node : FileNode) :
    (tree.put place node).workingDirectory = tree.workingDirectory := by
  unfold put
  split <;> rfl

theorem start_put (tree : FileTree) (place : Place) (node : FileNode) (path : Path) :
    (tree.put place node).start path = tree.start path := by
  rw [start, start, workingDirectory_put]

namespace LeadsTo

theorem barrier?_eq (hdirectory : LeadsTo tree directory place barriers)
    (kind : Barriers → Option Barrier) : tree.barrier? kind place = kind barriers :=
  barrier?_of_node?_eq hdirectory.node?_eq kind

/-- The path of a name in a directory leads to the place of that name, unless it is too long or the
directory is barred. -/
theorem locate_child (hdirectory : LeadsTo tree directory place barriers)
    (hname : IsFileName name) :
    tree.locate (directory.child name) =
      if (directory.child name).toText.utf8ByteSize ≤ maxPathSize then
        tree.unlessBarred (·.lookup) place (.ok (place ++ [name]))
      else .error .nameTooLong := by
  obtain ⟨hnul, hfits, hopen, hwalk⟩ := locate_eq_ok_iff.mp hdirectory.locate_eq
  have hstart : tree.start (directory.child name) = tree.start directory := by
    rw [start, start, Path.isAbsolute, Path.isAbsolute, Path.root_child hname.component]
  have hchild : ¬ ((directory.child name).components.any
      fun name ↦ name.toList.contains '\x00') = true := by
    rw [Path.components_child hname.component]
    simpa [hname.not_nul] using hnul
  rw [locate, if_neg hchild]
  split
  · rename_i hlong
    rw [if_neg (Nat.not_le_of_lt hlong)]
  · rename_i hshort
    rw [if_pos (Nat.le_of_not_lt hshort), hstart, unlessBarred_of_eq_none hopen,
      Path.components_child hname.component]
    exact walk_append_singleton hname hwalk hdirectory.node?_eq

variable (hdirectory : LeadsTo tree directory place)
include hdirectory

/-- An open directory is never in the way. -/
theorem unlessBarred_eq {α : Type} (kind : Barriers → Option Barrier) (hkind : kind {} = none)
    (outcome : Except FileFault α) : tree.unlessBarred kind place outcome = outcome :=
  unlessBarred_of_eq_none ((hdirectory.barrier?_eq kind).trans hkind)

/-- In an open directory, only the length of the path of a name matters. -/
theorem locate_child_of_open (hname : IsFileName name) :
    tree.locate (directory.child name) =
      if (directory.child name).toText.utf8ByteSize ≤ maxPathSize then .ok (place ++ [name])
      else .error .nameTooLong := by
  rw [hdirectory.locate_child hname, hdirectory.unlessBarred_eq (·.lookup) rfl]

/-- A new file leaves what led to a directory. -/
theorem put {other : Place} (hother : tree.node? other = none) {node : FileNode}
    (hnode : node.barriers.lookup = none) : LeadsTo (tree.put other node) directory place where
  locate_eq := by
    obtain ⟨hnul, hfits, hopen, hwalk⟩ := locate_eq_ok_iff.mp hdirectory.locate_eq
    rw [locate_eq_ok_iff, start_put]
    exact ⟨hnul, hfits, lookup_put_eq_none hnode hother hopen, walk_put hnode hother hwalk⟩
  node?_eq := by
    have hne : place ≠ other := by
      rintro rfl
      exact Option.some_ne_none _ (hdirectory.node?_eq.symm.trans hother)
    rw [node?_put_of_ne tree hne, hdirectory.node?_eq]

end LeadsTo

/-! ### Children -/

/-- What stands at a name in a directory is told by the children of the directory. -/
theorem node?_append_singleton (tree : FileTree) (place : Place) (name : String) :
    tree.node? (place ++ [name]) = ((tree.children place).find? (·.1 == name)).map (·.2) := by
  rw [node?, if_neg (by simp), children]
  induction tree.entries with
  | nil => rfl
  | cons entry entries ih =>
    obtain ⟨key, node⟩ := entry
    rcases List.eq_nil_or_concat' key with rfl | ⟨front, last, rfl⟩
    · simpa using ih
    · by_cases hfront : front = place
      · by_cases hlast : last = name <;> simp [hfront, hlast, ih]
      · simp [hfront, ih]

/-- A file at a new name is one more child. -/
theorem children_put (node : FileNode) (hnone : tree.node? (place ++ [name]) = none) :
    (tree.put (place ++ [name]) node).children place = tree.children place ++ [(name, node)] := by
  have hany : ¬ tree.entries.any (·.1 == place ++ [name]) = true := by
    rw [node?, if_neg (by simp), Option.map_eq_none_iff, List.find?_eq_none] at hnone
    rw [List.any_eq_true]
    rintro ⟨entry, hentry, hkey⟩
    exact hnone entry hentry hkey
  rw [put, if_neg hany, children, List.filterMap_append]
  simp [children]

/-! ### Accesses -/

namespace LeadsTo

theorem isDirectory (hdirectory : LeadsTo tree directory place barriers) :
    tree.isDirectory directory = .ok true :=
  isDirectory_eq_true_iff.mpr ⟨place, barriers, hdirectory.locate_eq, hdirectory.node?_eq⟩

/-- A directory that is there need not be made. -/
theorem ensureDirectories (hdirectory : LeadsTo tree directory place barriers) :
    tree.ensureDirectories directory = (tree, none) := by
  have hpresent : tree.makeDirectory directory = .error .present := by
    rw [makeDirectory, hdirectory.locate_eq]
    simp only [hdirectory.node?_eq]
  have hthere : tree.ensureDirectory directory = (tree, none) := by
    simp only [ensureDirectory, hpresent, hdirectory.isDirectory]
  rw [FileTree.ensureDirectories]
  cases directory.components.length with
  | zero => exact hthere
  | succ depth => rw [ensureDirectoriesUpTo, hthere]

/-- Writing at a name at which nothing stands puts a file there, unless its path is too long. -/
theorem write_child (hdirectory : LeadsTo tree directory place) (hname : IsFileName name)
    (hnone : tree.node? (place ++ [name]) = none) (content : FileContent) :
    tree.write (directory.child name) content =
      if (directory.child name).toText.utf8ByteSize ≤ maxPathSize then
        .ok (tree.put (place ++ [name]) (.file content))
      else .error .nameTooLong := by
  rw [write, hdirectory.locate_child_of_open hname]
  by_cases hfits : (directory.child name).toText.utf8ByteSize ≤ maxPathSize
  · have hmade : tree.create (place ++ [name]) (.file content) =
        .ok (tree.put (place ++ [name]) (.file content)) := by
      rw [create, List.dropLast_concat, hdirectory.unlessBarred_eq (·.writing) rfl]
    simp only [if_pos hfits, hnone, hmade]
  · simp only [if_neg hfits]

section File

variable {content : FileContent} (hdirectory : LeadsTo tree directory place)
  (hname : IsFileName name)
  (hfits : (directory.child name).toText.utf8ByteSize ≤ maxPathSize)
include hdirectory hname hfits

theorem locate_child_of_fits : tree.locate (directory.child name) = .ok (place ++ [name]) := by
  rw [hdirectory.locate_child_of_open hname, if_pos hfits]

theorem isFile_child {fileBarriers : Barriers}
    (hfile : tree.node? (place ++ [name]) = some (.file content fileBarriers)) :
    tree.isFile (directory.child name) = .ok true :=
  isFile_eq_true_iff.mpr
    ⟨_, content, fileBarriers, hdirectory.locate_child_of_fits hname hfits, hfile⟩

theorem read_child (hfile : tree.node? (place ++ [name]) = some (.file content)) :
    tree.read (directory.child name) = .ok content := by
  have hopen := (barrier?_of_node?_eq hfile (·.reading)).trans rfl
  rw [read, hdirectory.locate_child_of_fits hname hfits]
  simp only [unlessBarred_of_eq_none hopen, hfile]

end File

end LeadsTo

end FileTree

end PixelFont
