import PixelFont.Settings.Basic
import PixelFont.Settings.Scalar

/-!
Settings as structured values. A record of settings has a section for each group; a key may be
spelled in words joined by low lines or with inner capitals, and the latter counts where both are
given. A field that is not given takes its default, and a key that is not known is passed over.
What settings give as a value is the former spelling with every field.
-/

set_option autoImplicit false

namespace PixelFont

/-- A key in its two spellings. -/
structure SettingsKey where
  /-- The spelling with inner capitals. -/
  capitals : String
  /-- The spelling with low lines. -/
  lowLines : String
  deriving DecidableEq, Repr

namespace SettingsKey

/-- A key of one word. -/
def word (name : String) : SettingsKey :=
  ⟨name, name⟩

/-- The spelling of a key that a record uses, with the value given under it. -/
def find? (key : SettingsKey) (fields : List (String × Value)) : Option (String × Value) :=
  match Value.lookup? fields key.capitals with
  | some value => some (key.capitals, value)
  | none => (Value.lookup? fields key.lowLines).map fun value ↦ (key.lowLines, value)

/-- The reading of the field of a key, or the default where the record does not have it. -/
def read {α : Type} (key : SettingsKey) (fields : List (String × Value)) (default : α)
    (reading : Value → Checked α) : Checked α :=
  match key.find? fields with
  | some (name, value) => (reading value).inside (.key name)
  | none => .value default

end SettingsKey

namespace SettingsKey

def familyName : SettingsKey := ⟨"familyName", "family_name"⟩
def version : SettingsKey := word "version"
def description : SettingsKey := word "description"
def designer : SettingsKey := word "designer"
def url : SettingsKey := word "url"
def width : SettingsKey := word "width"
def height : SettingsKey := word "height"
def baselineRow : SettingsKey := ⟨"baselineRow", "baseline_row"⟩
def pixelSize : SettingsKey := ⟨"pixelSize", "pixel_size"⟩
def ascender : SettingsKey := ⟨"ascenderPx", "ascender_px"⟩
def descender : SettingsKey := ⟨"descenderPx", "descender_px"⟩
def lineGap : SettingsKey := ⟨"lineGapPx", "line_gap_px"⟩
def regular : SettingsKey := word "regular"
def bold : SettingsKey := word "bold"
def glyphDirs : SettingsKey := ⟨"glyphDirs", "glyph_dirs"⟩
def requiredStart : SettingsKey := ⟨"requiredStart", "required_start"⟩
def requiredEnd : SettingsKey := ⟨"requiredEnd", "required_end"⟩
def ligatures : SettingsKey := word "ligatures"
def deriveBold : SettingsKey := ⟨"deriveBold", "derive_bold"⟩
def missingReference : SettingsKey := ⟨"missingReference", "missing_reference"⟩
def maxWorkers : SettingsKey := ⟨"maxWorkers", "max_workers"⟩
def logFile : SettingsKey := ⟨"logFile", "log_file"⟩
def logLevel : SettingsKey := ⟨"logLevel", "log_level"⟩
def fileLogLevel : SettingsKey := ⟨"fileLogLevel", "file_log_level"⟩
def font : SettingsKey := word "font"
def grid : SettingsKey := word "grid"
def metrics : SettingsKey := word "metrics"
def weights : SettingsKey := word "weights"
def corpus : SettingsKey := word "corpus"
def processing : SettingsKey := word "processing"
def logging : SettingsKey := word "logging"
def projectRoot : SettingsKey := ⟨"projectRoot", "project_root"⟩

end SettingsKey

namespace Value

/-- The reading of a record of settings by its fields. -/
def readSection {α : Type} (model : String) (reading : List (String × Value) → Checked α)
    (value : Value) : Checked α :=
  match value.asRecord? with
  | some fields => reading fields
  | none => .fail (.notRecord model)

end Value

/-! ### Sections -/

/-- The naming that a record gives. -/
def Naming.ofFields (fields : List (String × Value)) : Checked Naming :=
  let default : Naming := {}
  Naming.mk
    <$> SettingsKey.familyName.read fields default.family Value.readName
    <*> SettingsKey.version.read fields default.version Value.readVersion
    <*> SettingsKey.description.read fields default.description Value.readText
    <*> SettingsKey.designer.read fields default.designer Value.readText
    <*> SettingsKey.url.read fields default.url Value.readText

/-- Naming as a structured value. -/
def Naming.toValue (naming : Naming) : Value :=
  .record [
    (SettingsKey.familyName.lowLines, .text naming.family),
    (SettingsKey.version.lowLines, .text naming.version),
    (SettingsKey.description.lowLines, .text naming.description),
    (SettingsKey.designer.lowLines, .text naming.designer),
    (SettingsKey.url.lowLines, .text naming.url)]

/-- The size of a raster that a record gives. -/
def RasterSize.ofFields (fields : List (String × Value)) : Checked RasterSize :=
  let default : RasterSize := {}
  RasterSize.mk
    <$> SettingsKey.width.read fields default.width (Value.readFrom 1)
    <*> SettingsKey.height.read fields default.height (Value.readFrom 1)
    <*> SettingsKey.baselineRow.read fields default.baselineRow (Value.readFrom 0)

/-- The size of a raster as a structured value. -/
def RasterSize.toValue (raster : RasterSize) : Value :=
  .record [
    (SettingsKey.width.lowLines, .int raster.width),
    (SettingsKey.height.lowLines, .int raster.height),
    (SettingsKey.baselineRow.lowLines, .int raster.baselineRow)]

/-- The metrics that a record gives. -/
def Metrics.ofFields (fields : List (String × Value)) : Checked Metrics :=
  let default : Metrics := {}
  Metrics.mk
    <$> SettingsKey.pixelSize.read fields default.pixelSize (Value.readFrom 1)
    <*> SettingsKey.ascender.read fields default.ascenderRows (Value.readFrom 0)
    <*> SettingsKey.descender.read fields default.descenderRows (Value.readFrom 0)
    <*> SettingsKey.lineGap.read fields default.lineGapRows (Value.readFrom 0)

/-- Metrics as a structured value. -/
def Metrics.toValue (metrics : Metrics) : Value :=
  .record [
    (SettingsKey.pixelSize.lowLines, .int metrics.pixelSize),
    (SettingsKey.ascender.lowLines, .int metrics.ascenderRows),
    (SettingsKey.descender.lowLines, .int metrics.descenderRows),
    (SettingsKey.lineGap.lowLines, .int metrics.lineGapRows)]

/-- The weight classes that a record gives. -/
def WeightClasses.ofFields (fields : List (String × Value)) : Checked WeightClasses :=
  let default : WeightClasses := {}
  WeightClasses.mk
    <$> SettingsKey.regular.read fields default.regular (Value.readBetween 1 1000)
    <*> SettingsKey.bold.read fields default.bold (Value.readBetween 1 1000)

/-- Weight classes as a structured value. -/
def WeightClasses.toValue (classes : WeightClasses) : Value :=
  .record [
    (SettingsKey.regular.lowLines, .int classes.regular),
    (SettingsKey.bold.lowLines, .int classes.bold)]

/-- The rules for a corpus with the required range looked at. -/
def CorpusRules.check (rules : CorpusRules) : Checked CorpusRules :=
  if rules.requiredEnd < rules.requiredStart then
    .fail (.reversedRange rules.requiredStart rules.requiredEnd)
  else .value rules

/-- The rules for a corpus that a record gives. -/
def CorpusRules.ofFields (fields : List (String × Value)) : Checked CorpusRules :=
  let default : CorpusRules := {}
  let codepoint := Value.readBetween 0 Settings.maxCodepoint
  Checked.andThen
    (CorpusRules.mk
      <$> SettingsKey.glyphDirs.read fields default.directories Value.readPaths
      <*> SettingsKey.requiredStart.read fields default.requiredStart codepoint
      <*> SettingsKey.requiredEnd.read fields default.requiredEnd codepoint
      <*> SettingsKey.ligatures.read fields default.ligatures Value.readFlag
      <*> SettingsKey.deriveBold.read fields default.deriveBold Value.readFlag
      <*> SettingsKey.missingReference.read fields default.missingReference Value.readText)
    CorpusRules.check

/-- The rules for a corpus as a structured value. -/
def CorpusRules.toValue (rules : CorpusRules) : Value :=
  .record [
    (SettingsKey.glyphDirs.lowLines, .list (rules.directories.map fun path ↦ .text path.toText)),
    (SettingsKey.requiredStart.lowLines, .int rules.requiredStart),
    (SettingsKey.requiredEnd.lowLines, .int rules.requiredEnd),
    (SettingsKey.ligatures.lowLines, .bool rules.ligatures),
    (SettingsKey.deriveBold.lowLines, .bool rules.deriveBold),
    (SettingsKey.missingReference.lowLines, .text rules.missingReference)]

/-- How the work is done as a record gives it. -/
def Processing.ofFields (fields : List (String × Value)) : Checked Processing :=
  let default : Processing := {}
  Processing.mk
    <$> SettingsKey.maxWorkers.read fields default.workers
      (Value.readOptional (Value.readFrom 1))

/-- How the work is done as a structured value. -/
def Processing.toValue (processing : Processing) : Value :=
  .record [
    (SettingsKey.maxWorkers.lowLines,
      .ofOption (fun (count : Nat) ↦ .int count) processing.workers)]

/-- What is logged as a record gives it. -/
def LogSettings.ofFields (fields : List (String × Value)) : Checked LogSettings :=
  let default : LogSettings := {}
  LogSettings.mk
    <$> SettingsKey.logFile.read fields default.file (Value.readOptional Value.readPath)
    <*> SettingsKey.logLevel.read fields default.consoleLevel Value.readText
    <*> SettingsKey.fileLogLevel.read fields default.fileLevel Value.readText

/-- What is logged as a structured value. -/
def LogSettings.toValue (log : LogSettings) : Value :=
  .record [
    (SettingsKey.logFile.lowLines, .ofOption (fun path ↦ .text path.toText) log.file),
    (SettingsKey.logLevel.lowLines, .text log.consoleLevel),
    (SettingsKey.fileLogLevel.lowLines, .text log.fileLevel)]

/-! ### Settings -/

namespace Settings

/-- The settings with the place of the baseline looked at. -/
def check (settings : Settings) : Checked Settings :=
  let raster := settings.raster
  if raster.height < raster.baselineRow then
    .fail (.baselineOutside raster.baselineRow raster.height)
  else .value settings

/-- The settings that a record gives. -/
def ofFields (fields : List (String × Value)) : Checked Settings :=
  let default : Settings := {}
  Checked.andThen
    (Settings.mk
      <$> SettingsKey.font.read fields default.naming
        (Value.readSection "FontInfoConfig" Naming.ofFields)
      <*> SettingsKey.grid.read fields default.raster
        (Value.readSection "GridConfig" RasterSize.ofFields)
      <*> SettingsKey.metrics.read fields default.metrics
        (Value.readSection "MetricsConfig" Metrics.ofFields)
      <*> SettingsKey.weights.read fields default.weights
        (Value.readSection "WeightsConfig" WeightClasses.ofFields)
      <*> SettingsKey.corpus.read fields default.corpus
        (Value.readSection "CorpusConfig" CorpusRules.ofFields)
      <*> SettingsKey.processing.read fields default.processing
        (Value.readSection "ProcessingConfig" Processing.ofFields)
      <*> SettingsKey.logging.read fields default.log
        (Value.readSection "LoggingConfig" LogSettings.ofFields)
      <*> SettingsKey.projectRoot.read fields default.projectRoot Value.readPath)
    check

/-- The settings that a structured value gives. -/
def ofValue (value : Value) : Checked Settings :=
  Value.readSection "GridfontSettings" ofFields value

/-- Settings as a structured value. -/
def toValue (settings : Settings) : Value :=
  .record [
    (SettingsKey.font.lowLines, settings.naming.toValue),
    (SettingsKey.grid.lowLines, settings.raster.toValue),
    (SettingsKey.metrics.lowLines, settings.metrics.toValue),
    (SettingsKey.weights.lowLines, settings.weights.toValue),
    (SettingsKey.corpus.lowLines, settings.corpus.toValue),
    (SettingsKey.processing.lowLines, settings.processing.toValue),
    (SettingsKey.logging.lowLines, settings.log.toValue),
    (SettingsKey.projectRoot.lowLines, .text settings.projectRoot.toText)]

end Settings

end PixelFont
