import PixelFont.FileTree.Access
import PixelFont.Font.Assembly
import PixelFont.Text.Quoted

/-!
Saving of a font in two files, one of which is compressed. The directory is made if it is missing.
The directories come first, then the question whether the tables hold the font, then the files.
The compressed file is made of the other one, which is read back.
-/

set_option autoImplicit false

namespace PixelFont

/-- Why a font is not saved. -/
inductive SaveFault where
  /-- The file of a path cannot be written, for the given reason. -/
  | unwritable (path : Path) (reason : String)
  | unstorable
  /-- The path of the files can be no path. -/
  | badPath
  deriving DecidableEq, Repr

/-- The wording of a fault. -/
def SaveFault.message : SaveFault → String
  | .unwritable path reason => "Failed to save font '" ++ path.toText ++ "': " ++ reason
  | .unstorable => FontFault.unstorable.message
  | .badPath => FileFault.nulCharacter.message

namespace Font

/-- The ending of a font file. -/
def trueTypeEnding : String := ".ttf"

/-- The ending of a compressed font file. -/
def compressedEnding : String := ".woff2"

/-- The path of a font file of some ending in a directory. -/
def filePath (directory : Path) (naming : Naming) (weight : Weight) (ending : String) : Path :=
  directory.child (compactName naming weight ++ ending)

/-- The fault of a file that cannot be written, with how the fault is told. -/
def saveFault (path : Path) (fault : FileFault) (reason : String) : SaveFault :=
  if fault = .nulCharacter then .badPath else .unwritable path reason

/-- A fault with its number and the path, as the compressed file tells it. -/
def numberedReason (path : Path) (fault : FileFault) : String :=
  "[Errno " ++ toString fault.number ++ "] " ++ fault.message ++ ": " ++
    Text.Quoted.quote path.toText

/-- The tree with the two files of a font in a directory, which is made if it is missing, and the
paths of the files or the fault. -/
def save (tree : FileTree) (directory : Path) (naming : Naming) (font : Font) :
    Except SaveFault (Path × Path) × FileTree :=
  let trueType := filePath directory naming font.weight trueTypeEnding
  let compressed := filePath directory naming font.weight compressedEnding
  match tree.ensureDirectories directory with
  | (made, some fault) => (.error (saveFault trueType fault fault.message), made)
  | (made, none) =>
    if font.fits then
      match made.write trueType (.font font) with
      | .error fault => (.error (saveFault trueType fault fault.message), made)
      | .ok written =>
        match written.read trueType with
        | .error fault =>
          (.error (saveFault compressed fault (numberedReason trueType fault)), written)
        | .ok _ =>
          match written.write compressed (.font font) with
          | .error fault =>
            (.error (saveFault compressed fault (numberedReason compressed fault)), written)
          | .ok saved => (.ok (trueType, compressed), saved)
    else (.error .unstorable, made)

end Font

end PixelFont
