import PixelFont.FileTree.Access
import PixelFont.GlyphFile.Writer

/-!
Writing of glyphs as files of a directory, which is made if it is missing. Files are written in
turn, so those before a fault stay.
-/

set_option autoImplicit false

namespace PixelFont.Corpus

/-- The path of a glyph's file in a directory. -/
def filePath (directory : Path) (glyph : Glyph) : Path :=
  directory.child glyph.fileName

/-- The tree with the files of some glyphs in a directory, and the first fault if there is one. -/
def writeFiles (tree : FileTree) (directory : Path) : List Glyph → FileTree × Option FileFault
  | [] => (tree, none)
  | glyph :: glyphs =>
    match tree.writeText (filePath directory glyph) glyph.fileText with
    | .error fault => (tree, some fault)
    | .ok written => writeFiles written directory glyphs

/-- The tree with the files of some glyphs in a directory, which is made if it is missing, and
the first fault if there is one. -/
def write (tree : FileTree) (directory : Path) (glyphs : List Glyph) :
    FileTree × Option FileFault :=
  match tree.ensureDirectories directory with
  | (made, some fault) => (made, some fault)
  | (made, none) => writeFiles made directory glyphs

end PixelFont.Corpus
