import PixelFont.Corpus.Basic
import PixelFont.GlyphFile.Access

/-!
Reading of a corpus: the glyph files directly inside some directories, in the order of their
paths. A directory that is not there holds no files. A file that cannot be read does not keep the
others from being read, unless the reading is strict.
-/

set_option autoImplicit false

namespace PixelFont

/-- Why no corpus is read. -/
inductive CorpusFault where
  | file (fault : FileFault)
  /-- Files cannot be read by no worker at all. -/
  | noWorkers
  | rejected (error : GlyphFileError)
  deriving DecidableEq, Repr

/-- The wording of a fault. -/
def CorpusFault.message : CorpusFault → String
  | .file fault => fault.message
  | .noWorkers => "max_workers must be greater than 0"
  | .rejected error => error.message

namespace Corpus

/-- Whether a name in a directory is that of a glyph file. -/
def isGlyphName (name : String) : Bool :=
  GlyphFile.ending.toList.isSuffixOf name.toList

/-- The paths of the glyph files directly inside a directory that is there. It is listed, and the
names are looked up in turn, up to the first whose path is at fault. -/
def filesIn (tree : FileTree) (directory : Path) : Except FileFault (List Path) :=
  match tree.locate directory with
  | .error fault => .error fault
  | .ok place =>
    tree.unlessBarred (·.reading) place <|
      let names := ((tree.children place).map (·.1)).filter isGlyphName
      let paths := names.map directory.child
      match paths.mapM tree.isFile with
      | .error fault => .error fault
      | .ok answers => .ok (((paths.zip answers).filter (·.2)).map (·.1))

/-- The paths of the glyph files directly inside a directory, if the directory is there. -/
def listing? (tree : FileTree) (directory : Path) : Except FileFault (Option (List Path)) :=
  match tree.isDirectory directory with
  | .error fault => .error fault
  | .ok false => .ok none
  | .ok true => (filesIn tree directory).map some

/-- The paths of the glyph files directly inside some directories, in order. The directories are
looked up in turn, up to the first that is at fault. -/
def discover (tree : FileTree) (directories : List Path) : Except FileFault (List Path) :=
  match directories.mapM (listing? tree) with
  | .error fault => .error fault
  | .ok listings => .ok ((listings.filterMap id).flatten.mergeSort Path.precedes)

/-- What reading the files of some paths gives, path by path. -/
def readings (tree : FileTree) (paths : List Path) :
    List (Path × Except GlyphFileError Glyph) :=
  paths.map fun path ↦ (path, GlyphFile.read tree path)

/-- The glyph of a reading, if it gives one. -/
def glyph? (reading : Path × Except GlyphFileError Glyph) : Option Glyph :=
  reading.2.toOption

/-- The error of a reading with the path, if it gives no glyph. -/
def rejected? (reading : Path × Except GlyphFileError Glyph) : Option (Path × GlyphFileError) :=
  match reading.2 with
  | .error error => some (reading.1, error)
  | .ok _ => none

/-- The corpus that some readings give. -/
def ofReadings (readings : List (Path × Except GlyphFileError Glyph)) : Corpus where
  glyphs := readings.filterMap glyph?
  rejections := (readings.filterMap rejected?).map fun entry ↦ ⟨entry.1, entry.2.reason⟩

/-- The corpus of some directories. -/
def read (tree : FileTree) (directories : List Path) : Except FileFault Corpus :=
  match discover tree directories with
  | .error fault => .error fault
  | .ok paths => .ok (ofReadings (readings tree paths))

/-- The corpus of some directories, read by a number of workers, which the machine chooses where
none is given. If the reading is strict, the first file rejected is an error. -/
def readWith (tree : FileTree) (directories : List Path) (workers : Option Int) (strict : Bool) :
    Except CorpusFault Corpus :=
  match discover tree directories with
  | .error fault => .error (.file fault)
  | .ok paths =>
    if workers.any (· ≤ 0) then .error .noWorkers
    else
      match strict, (readings tree paths).filterMap rejected? with
      | true, (_, error) :: _ => .error (.rejected error)
      | _, _ => .ok (ofReadings (readings tree paths))

end Corpus

end PixelFont
