import PixelFont.Text.Order

/-!
Path texts of a file system whose separator is the slash. A path is kept in normal form: empty
components and components of one point are dropped, two points stay, one slash at the start makes
a path absolute, as do three or more, and exactly two are kept as a root of their own.
-/

set_option autoImplicit false

namespace PixelFont

/-- Whether a text may stand as a component of a path in normal form. -/
def isPathComponent (component : String) : Bool :=
  component != "" && component != "." && !component.toList.contains '/'

/-- Where a path begins. -/
inductive PathRoot where
  /-- At the directory in use. -/
  | none
  | slash
  | doubleSlash
  deriving DecidableEq, Repr

/-- A path in normal form. -/
structure Path where
  root : PathRoot
  components : List String
  normal : components.all isPathComponent = true
  deriving DecidableEq, Repr

namespace Path

/-- The directory in use. -/
def here : Path :=
  ⟨.none, [], rfl⟩

instance : Inhabited Path :=
  ⟨here⟩

/-- The root that a number of slashes at the start denotes. -/
def rootOf : Nat → PathRoot
  | 0 => .none
  | 2 => .doubleSlash
  | _ => .slash

/-- The path of given components, those that cannot stand in one being dropped. -/
def ofComponents (root : PathRoot) (components : List String) : Path :=
  ⟨root, components.filter isPathComponent, by simp⟩

/-- The path that a text denotes. -/
def ofString (text : String) : Path :=
  ofComponents (rootOf (text.toList.takeWhile (· == '/')).length)
    ((text.toList.splitOn '/').map String.ofList)

/-- The text of a root. -/
def rootText : PathRoot → String
  | .none => ""
  | .slash => "/"
  | .doubleSlash => "//"

/-- The text of a path. -/
def toText (path : Path) : String :=
  if path.root = .none ∧ path.components = [] then "."
  else rootText path.root ++ "/".intercalate path.components

/-- Whether a path does not begin at the directory in use. -/
def isAbsolute (path : Path) : Bool :=
  path.root != .none

/-- The last component, or the empty text where there is none. -/
def name (path : Path) : String :=
  path.components.getLast?.getD ""

/-- The path without its last component. -/
def parent (path : Path) : Path :=
  { path with
    components := path.components.dropLast
    normal := by
      refine List.all_eq_true.mpr fun component hmem ↦ ?_
      exact List.all_eq_true.mp path.normal component ((List.dropLast_sublist _).subset hmem) }

/-- The second path as seen from the first; an absolute one stands for itself. -/
def join (base path : Path) : Path :=
  if path.isAbsolute then path
  else
    { base with
      components := base.components ++ path.components
      normal := by simp [List.all_append, base.normal, path.normal] }

/-- The path that a text denotes as seen from a path. -/
def child (base : Path) (text : String) : Path :=
  base.join (ofString text)

/-- The root, if there is one, and the components, as paths are compared by. -/
def parts (path : Path) : List String :=
  if path.isAbsolute then rootText path.root :: path.components else path.components

/-- Whether a path comes before another or is the same: parts compare in turn, each by the
codepoints of its characters. -/
def precedes (path other : Path) : Bool :=
  !Text.listOfTextsBefore other.parts path.parts

/-- The components of a path as seen from a directory, components of two points being folded. -/
def foldFrom (directory components : List String) : List String :=
  components.foldl
    (fun place component ↦ if component = ".." then place.dropLast else place ++ [component])
    directory

/-- The components from the root on of a path as seen from the directory in use. -/
def resolve (workingDirectory : List String) (path : Path) : List String :=
  foldFrom (if path.isAbsolute then [] else workingDirectory) path.components

end Path

end PixelFont
