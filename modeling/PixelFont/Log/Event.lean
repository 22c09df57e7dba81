import PixelFont.Corpus.Reader
import PixelFont.Log.Level
import PixelFont.Report
import PixelFont.Settings.Basic
import PixelFont.Value

/-!
Events of a build, as they are logged. An event has a level, the part of the program that logs it,
a name and fields of its own.
-/

set_option autoImplicit false

namespace PixelFont

/-- An event of a build. -/
structure LogEvent where
  level : LogLevel
  /-- The part of the program that logs the event. -/
  logger : String
  name : String
  fields : List (String × Value)
  deriving Repr

namespace LogEvent

/-- The logger of a build. -/
def buildLogger : String := "gridfont"

/-- The logger of the reading of files. -/
def readerLogger : String := "gridfont.io.reader"

/-- An event as a structured value. -/
def toValue (event : LogEvent) : Value :=
  .record (event.fields ++ [("event", .text event.name), ("logger", .text event.logger),
    ("level", .text event.level.smallName)])

/-- A count as a value. -/
def countValue (count : Nat) : Value :=
  .int count

/-- A path as a value. -/
def pathValue (path : Path) : Value :=
  .text path.toText

/-- The log begins, in a file if there is one. -/
def initialized (file : Option Path) : LogEvent :=
  ⟨.debug, buildLogger, "Logging initialized", [("log_file", .ofOption pathValue file)]⟩

/-- A directory of glyph files is not there. -/
def directoryMissing (directory : Path) : LogEvent :=
  ⟨.debug, readerLogger, "Glyph directory not found, skipping",
    [("directory", pathValue directory)]⟩

/-- A file is rejected. -/
def fileRejected (path : Path) (error : GlyphFileError) : LogEvent :=
  ⟨.warning, readerLogger, "Glyph source rejected",
    [("file", pathValue path), ("error", .text error.message)]⟩

/-- The files of a corpus are read. -/
def corpusRead (files : Nat) (corpus : Corpus) : LogEvent :=
  ⟨.info, readerLogger, "Corpus read",
    [("files", countValue files), ("glyphs", countValue corpus.glyphs.length),
      ("failures", countValue corpus.rejections.length)]⟩

/-- A corpus is loaded from some directories. -/
def corpusLoaded (directories : List Path) (corpus : Corpus) : LogEvent :=
  ⟨.info, buildLogger, "Corpus loaded",
    [("directories", .list (directories.map pathValue)),
      ("glyphs", countValue corpus.glyphs.length),
      ("failures", countValue corpus.rejections.length)]⟩

/-- A corpus is validated. -/
def corpusValidated (report : Report) : LogEvent :=
  ⟨.info, buildLogger, "Corpus validated",
    [("errors", countValue report.errors.length),
      ("warnings", countValue report.warnings.length)]⟩

/-- Glyphs are about to be compiled by several workers. -/
def parallelCompilation (glyphs : Nat) (workers : Option Nat) : LogEvent :=
  ⟨.info, buildLogger, "Starting parallel compilation",
    [("glyphs", countValue glyphs), ("max_workers", .ofOption countValue workers)]⟩

/-- A glyph is compiled. -/
def glyphCompiled (label : String) (weight : Weight) (rectangles : Int) (derived : Bool) :
    LogEvent :=
  ⟨.debug, buildLogger, "Glyph compiled",
    [("glyph", .text label), ("weight", .text weight.name), ("rectangles", .int rectangles),
      ("derived", .bool derived)]⟩

/-- A glyph fails to compile. -/
def glyphFailed (label error : String) : LogEvent :=
  ⟨.error, buildLogger, "Glyph compilation failed",
    [("glyph", .text label), ("error", .text error)]⟩

/-- A ligature is left out of the substitutions. -/
def ligatureSkipped (label reason : String) : LogEvent :=
  ⟨.warning, buildLogger, "Ligature skipped",
    [("glyph", .text label), ("reason", .text reason)]⟩

/-- The font of a weight is saved. -/
def fontSaved (weight : Weight) (glyphs rectangles ligatures : Nat) (trueType compressed : Path) :
    LogEvent :=
  ⟨.info, buildLogger, "Font saved",
    [("weight", .text weight.name), ("glyphs", countValue glyphs),
      ("rectangles", countValue rectangles), ("ligatures", countValue ligatures),
      ("ttf", pathValue trueType), ("woff2", pathValue compressed)]⟩

/-- A build is complete. -/
def buildComplete (compiled derived : Nat) (rectangles : Int) : LogEvent :=
  ⟨.info, buildLogger, "Build complete",
    [("compiled", countValue compiled), ("derived", countValue derived),
      ("rectangles", .int rectangles)]⟩

end LogEvent

namespace Corpus

/-- The events of reading a corpus from some directories. -/
def events (tree : FileTree) (directories : List Path) : List LogEvent :=
  let reached := directories.map fun directory ↦ (directory, listing? tree directory)
  let looked := reached.takeWhile fun entry ↦ entry.2.isOk
  let missing := (looked.filter fun entry ↦ entry.2.toOption == some none).map fun entry ↦
    LogEvent.directoryMissing entry.1
  match discover tree directories with
  | .error _ => missing
  | .ok paths =>
    let all := readings tree paths
    missing ++ (all.filterMap rejected?).map (fun entry ↦ LogEvent.fileRejected entry.1 entry.2) ++
      [LogEvent.corpusRead paths.length (ofReadings all)]

end Corpus

end PixelFont
