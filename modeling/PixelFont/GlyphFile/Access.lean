import PixelFont.FileTree.Access
import PixelFont.GlyphFile.Reader

/-!
Reading of glyph files from a tree. A file that cannot be read, that is not UTF-8 or whose header
is malformed gives no glyph, and every reason has its wording.
-/

set_option autoImplicit false

namespace PixelFont

/-- Why a file gives no text. -/
inductive ReadFault where
  | file (fault : FileFault)
  | encoding (fault : Text.Utf8.Fault)
  deriving DecidableEq, Repr

/-- The wording of a fault. -/
def ReadFault.message : ReadFault → String
  | .file fault => fault.message
  | .encoding fault => "not valid UTF-8 (" ++ fault.message ++ ")"

/-- Why a glyph file gives no glyph, the file being named in text. -/
inductive GlyphFileError where
  | malformed (place : String) (fault : HeaderFault)
  | unreadable (place : String) (fault : ReadFault)
  deriving DecidableEq, Repr

namespace GlyphFileError

/-- The reason of an error, without the name of the file. -/
def reason : GlyphFileError → String
  | malformed _ fault => fault.message
  | unreadable _ fault => fault.message

/-- The wording of an error. -/
def message : GlyphFileError → String
  | malformed place fault => "Failed to parse glyph '" ++ place ++ "': " ++ fault.message
  | unreadable place fault => "Failed to read glyph '" ++ place ++ "': " ++ fault.message

end GlyphFileError

namespace GlyphFile

/-- How errors name the file of a glyph, if there is one. -/
def placeName : Option Path → String
  | some path => path.toText
  | none => "<text>"

/-- The text that the content of a file holds. What a font holds is no text. -/
def decode : FileContent → Except Text.Utf8.Fault (List Char)
  | .bytes bytes => Text.Utf8.decode bytes
  | .font _ => .error .invalidStart

/-- The text that the file of a path holds. -/
def readText (tree : FileTree) (path : Path) : Except ReadFault (List Char) :=
  match tree.read path with
  | .error fault => .error (.file fault)
  | .ok content =>
    match decode content with
    | .error fault => .error (.encoding fault)
    | .ok text => .ok text

/-- The glyph that the file of a path holds. -/
def read (tree : FileTree) (path : Path) : Except GlyphFileError Glyph :=
  match readText tree path with
  | .error fault => .error (.unreadable path.toText fault)
  | .ok text =>
    match parse text (some path) with
    | .error fault => .error (.malformed path.toText fault)
    | .ok glyph => .ok glyph

end GlyphFile

end PixelFont
