import PixelFont.FileTree.Basic
import PixelFont.Text.Utf8

/-!
Access to the files of a tree: whether a directory is there, what a file holds, writing and
deleting files, and making directories. An access that fails may still have made some of the
directories on the way.
-/

set_option autoImplicit false

namespace PixelFont.FileTree

/-- What a path leads to, if anything stands there. A path that cannot be looked up for another
reason than that nothing is there is a fault. -/
def nodeAt (tree : FileTree) (path : Path) : Except FileFault (Option FileNode) :=
  match tree.locate path with
  | .ok place => .ok (tree.node? place)
  | .error fault => if fault.isAbsence then .ok none else .error fault

/-- Whether a path leads to a directory. -/
def isDirectory (tree : FileTree) (path : Path) : Except FileFault Bool :=
  (tree.nodeAt path).map fun node ↦ node.any (·.isDirectory)

/-- Whether a path leads to a file. -/
def isFile (tree : FileTree) (path : Path) : Except FileFault Bool :=
  (tree.nodeAt path).map fun node ↦ node.any (!·.isDirectory)

/-- What the file of a path holds. -/
def read (tree : FileTree) (path : Path) : Except FileFault FileContent :=
  match tree.locate path with
  | .error fault => .error fault
  | .ok place =>
    tree.unlessBarred (·.reading) place <|
      match tree.node? place with
      | none => .error .missing
      | some (.directory _) => .error .isDirectory
      | some (.file content _) => .ok content

/-- The tree with a file or a directory at a place at which nothing stands yet. -/
def create (tree : FileTree) (place : Place) (node : FileNode) : Except FileFault FileTree :=
  tree.unlessBarred (·.writing) place.dropLast (.ok (tree.put place node))

/-- The tree with other content in the file of a path, which need not be there yet. -/
def write (tree : FileTree) (path : Path) (content : FileContent) : Except FileFault FileTree :=
  match tree.locate path with
  | .error fault => .error fault
  | .ok place =>
    match tree.node? place with
    | none => tree.create place (.file content)
    | some (.directory _) => .error .isDirectory
    | some (.file _ barriers) =>
      tree.unlessBarred (·.writing) place (.ok (tree.put place (.file content barriers)))

/-- The tree with a text in the file of a path. -/
def writeText (tree : FileTree) (path : Path) (text : String) : Except FileFault FileTree :=
  tree.write path (.bytes (Text.Utf8.encode text.toList))

/-- The tree with a file at a path, which keeps what it holds if it is there. The file is one that
can be written. -/
def touch (tree : FileTree) (path : Path) : Except FileFault FileTree :=
  match tree.locate path with
  | .error fault => .error fault
  | .ok place =>
    match tree.node? place with
    | none => tree.create place (.file (.bytes []))
    | some (.directory _) => .error .isDirectory
    | some (.file ..) => tree.unlessBarred (·.writing) place (.ok tree)

/-- The tree without the file of a path. -/
def delete (tree : FileTree) (path : Path) : Except FileFault FileTree :=
  match tree.locate path with
  | .error fault => .error fault
  | .ok place =>
    match tree.node? place with
    | none => .error .missing
    | some node =>
      tree.unlessBarred (·.writing) place.dropLast <|
        if node.isDirectory then .error .isDirectory else .ok (tree.erase place)

/-- The tree with a directory at a path at which nothing stands yet. -/
def makeDirectory (tree : FileTree) (path : Path) : Except FileFault FileTree :=
  match tree.locate path with
  | .error fault => .error fault
  | .ok place =>
    match tree.node? place with
    | some _ => .error .present
    | none => tree.create place .directory

/-- The tree with a directory at a path, the one above it being there; the fault if there can be
none. That a directory is there already is no fault. -/
def ensureDirectory (tree : FileTree) (path : Path) : FileTree × Option FileFault :=
  match tree.makeDirectory path with
  | .ok made => (made, none)
  | .error .missing => (tree, some .missing)
  | .error fault =>
    match tree.isDirectory path with
    | .ok true => (tree, none)
    | _ => (tree, some fault)

/-- The tree with a directory at a path and with those above it as far as they are missing,
and the fault if there can be none. The number bounds the directories above. -/
def ensureDirectoriesUpTo : Nat → FileTree → Path → FileTree × Option FileFault
  | 0, tree, path => tree.ensureDirectory path
  | depth + 1, tree, path =>
    match tree.ensureDirectory path with
    | (unchanged, some .missing) =>
      match ensureDirectoriesUpTo depth unchanged path.parent with
      | (made, none) => made.ensureDirectory path
      | (made, some fault) => (made, some fault)
    | result => result

/-- The tree with a directory at a path and with all those above it, and the fault if there can
be none. -/
def ensureDirectories (tree : FileTree) (path : Path) : FileTree × Option FileFault :=
  ensureDirectoriesUpTo path.components.length tree path

end PixelFont.FileTree
