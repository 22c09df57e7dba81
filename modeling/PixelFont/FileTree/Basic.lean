import PixelFont.Font.Basic
import PixelFont.Path

/-!
Trees of files. A tree knows the directory in use and what stands at each place, a place being
the components from the root on. Finding a place walks through directories that must exist; the
last component may be missing. A file holds bytes or a font.

What stands at a place may be barred: a file from being read or written, a directory from being
listed, from being changed, or from having names looked up in it. The root never is.
-/

set_option autoImplicit false

namespace PixelFont

/-- What keeps an access from going on where the file or the directory is there. -/
inductive Barrier where
  | denied
  | inputOutput
  deriving DecidableEq, Repr

/-- Why an access to a file fails. -/
inductive FileFault where
  | missing
  | present
  | notDirectory
  | isDirectory
  | nameTooLong
  /-- The path holds a character that no path can. -/
  | nulCharacter
  | barred (barrier : Barrier)
  deriving DecidableEq, Repr

namespace FileFault

/-- The number of a fault. -/
def number : FileFault → Nat
  | missing => 2
  | present => 17
  | notDirectory => 20
  | isDirectory => 21
  | nameTooLong => 36
  | nulCharacter => 0
  | barred .denied => 13
  | barred .inputOutput => 5

/-- The wording of a fault. -/
def message : FileFault → String
  | missing => "No such file or directory"
  | present => "File exists"
  | notDirectory => "Not a directory"
  | isDirectory => "Is a directory"
  | nameTooLong => "File name too long"
  | nulCharacter => "embedded null byte"
  | barred .denied => "Permission denied"
  | barred .inputOutput => "Input/output error"

/-- Whether a fault of looking a path up says that nothing is there. -/
def isAbsence : FileFault → Bool
  | missing | notDirectory | nulCharacter => true
  | _ => false

end FileFault

/-- The components from the root to a file or a directory. -/
abbrev Place : Type := List String

/-- What a file holds. -/
inductive FileContent where
  | bytes (bytes : List UInt8)
  | font (font : Font)
  deriving DecidableEq, Repr

/-- What keeps each kind of access from going on at a place, if anything does. -/
structure Barriers where
  /-- To reading a file or to listing a directory. -/
  reading : Option Barrier := none
  /-- To writing a file or to making and removing names in a directory. -/
  writing : Option Barrier := none
  /-- To looking names up in a directory. -/
  lookup : Option Barrier := none
  deriving DecidableEq, Repr

/-- What stands at a place. -/
inductive FileNode where
  | directory (barriers : Barriers := {})
  | file (content : FileContent) (barriers : Barriers := {})
  deriving DecidableEq, Repr

namespace FileNode

/-- Whether a directory stands at a place. -/
def isDirectory : FileNode → Bool
  | directory _ => true
  | file .. => false

/-- What keeps accesses from going on. -/
def barriers : FileNode → Barriers
  | directory barriers => barriers
  | file _ barriers => barriers

end FileNode

/-- A tree of files with the directory in use. -/
structure FileTree where
  workingDirectory : Place
  entries : List (Place × FileNode)
  deriving DecidableEq, Repr

namespace FileTree

/-- What stands at a place; the root is a directory. -/
def node? (tree : FileTree) (place : Place) : Option FileNode :=
  if place = [] then some .directory else (tree.entries.find? (·.1 == place)).map (·.2)

/-- What keeps a kind of access from going on at a place, if anything does. -/
def barrier? (tree : FileTree) (kind : Barriers → Option Barrier) (place : Place) :
    Option Barrier :=
  (tree.node? place).bind fun node ↦ kind node.barriers

/-- What an access gives, unless a barrier at a place keeps it from going on. -/
def unlessBarred {α : Type} (tree : FileTree) (kind : Barriers → Option Barrier) (place : Place)
    (outcome : Except FileFault α) : Except FileFault α :=
  match tree.barrier? kind place with
  | some barrier => .error (.barred barrier)
  | none => outcome

/-- The tree with something else at a place. -/
def put (tree : FileTree) (place : Place) (node : FileNode) : FileTree :=
  if tree.entries.any (·.1 == place) then
    { tree with
      entries := tree.entries.map fun entry ↦ if entry.1 == place then (place, node) else entry }
  else { tree with entries := tree.entries ++ [(place, node)] }

/-- The tree with nothing at a place. -/
def erase (tree : FileTree) (place : Place) : FileTree :=
  { tree with entries := tree.entries.filter fun entry ↦ entry.1 != place }

/-- The tree with directories on the way to a place, as far as nothing stands there. -/
def putParents (tree : FileTree) (place : Place) : FileTree :=
  (List.range place.length).foldl
    (fun tree depth ↦
      if (tree.node? (place.take depth)).isNone then tree.put (place.take depth) .directory
      else tree)
    tree

/-- The tree with the directory in use alone. -/
def empty (workingDirectory : Place) : FileTree :=
  (FileTree.putParents ⟨workingDirectory, []⟩ workingDirectory).put workingDirectory .directory

/-- The tree with a file or a directory at a place and directories on the way to it. -/
def add (tree : FileTree) (place : Place) (node : FileNode) : FileTree :=
  (tree.putParents place).put place node

/-- The names of what stands in a directory, with what it is. -/
def children (tree : FileTree) (place : Place) : List (String × FileNode) :=
  tree.entries.filterMap fun entry ↦
    match entry.1.getLast? with
    | some name => if entry.1.dropLast = place then some (name, entry.2) else none
    | none => none

/-! ### Finding places -/

/-- The greatest number of bytes of a name. -/
def maxNameSize : Nat := 255

/-- The greatest number of bytes of a path. -/
def maxPathSize : Nat := 4095

/-- The place that components lead to from a directory. Each is looked up in the directory that
those before it lead to. -/
def walk (tree : FileTree) (directory : Place) : List String → Except FileFault Place
  | [] => .ok directory
  | name :: names =>
    tree.unlessBarred (·.lookup) directory <|
      if name = ".." then walk tree directory.dropLast names
      else if maxNameSize < name.utf8ByteSize then .error .nameTooLong
      else
        match names with
        | [] => .ok (directory ++ [name])
        | _ :: _ =>
          match tree.node? (directory ++ [name]) with
          | none => .error .missing
          | some (.file ..) => .error .notDirectory
          | some (.directory _) => walk tree (directory ++ [name]) names

/-- The directory that a path is looked up from. -/
def start (tree : FileTree) (path : Path) : Place :=
  if path.isAbsolute then [] else tree.workingDirectory

/-- The place that a path leads to. -/
def locate (tree : FileTree) (path : Path) : Except FileFault Place :=
  if path.components.any fun name ↦ name.toList.contains '\x00' then .error .nulCharacter
  else if maxPathSize < path.toText.utf8ByteSize then .error .nameTooLong
  else
    -- A path without components, too, is looked up in the directory in use.
    tree.unlessBarred (·.lookup) (tree.start path) (tree.walk (tree.start path) path.components)

end FileTree

end PixelFont
