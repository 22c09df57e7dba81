import PixelFont.Outline.Mapping

/-!
Settings of a font: its naming, the size of its rasters, their scale, the weight classes, where
glyph files are and what a complete corpus holds, and how the work is done and logged. Main
definition: `Settings.IsAccepted`, the bounds that all settings in use keep.
-/

set_option autoImplicit false

namespace PixelFont

/-- How a font is named. -/
structure Naming where
  family : String := "Gridfont"
  /-- The version as two numbers with a point between them. -/
  version : String := "1.000"
  description : String := ""
  designer : String := ""
  url : String := ""
  deriving DecidableEq, Repr

/-- The raster that the glyphs of a font share. -/
structure RasterSize where
  width : Nat := 8
  height : Nat := 16
  /-- The row whose top edge is the baseline. -/
  baselineRow : Nat := 13
  deriving DecidableEq, Repr

/-- The extents of a font in cells, and the side of a cell in font units. -/
structure Metrics where
  pixelSize : Nat := 120
  ascenderRows : Nat := 13
  descenderRows : Nat := 3
  lineGapRows : Nat := 0
  deriving DecidableEq, Repr

namespace Metrics

/-- How far a line reaches above the baseline. -/
def ascender (metrics : Metrics) : Int :=
  metrics.ascenderRows * metrics.pixelSize

/-- How far a line reaches below the baseline, as a vertical place. -/
def descender (metrics : Metrics) : Int :=
  -(metrics.descenderRows * metrics.pixelSize)

/-- The space between lines. -/
def lineGap (metrics : Metrics) : Int :=
  metrics.lineGapRows * metrics.pixelSize

end Metrics

/-- The weight classes of the fonts. -/
structure WeightClasses where
  regular : Nat := 400
  bold : Nat := 700
  deriving DecidableEq, Repr

/-- The class of a weight. -/
def WeightClasses.of (classes : WeightClasses) : Weight → Nat
  | .regular => classes.regular
  | .bold => classes.bold

/-- Where glyph files are and what a complete corpus holds. -/
structure CorpusRules where
  directories : List Path := [Path.ofString "glyphs/ascii"]
  /-- The first codepoint that every corpus must hold. -/
  requiredStart : Nat := 0x20
  /-- The last codepoint that every corpus must hold. -/
  requiredEnd : Nat := 0x7E
  ligatures : Bool := true
  deriveBold : Bool := true
  /-- What a report names as the source of a glyph that is not there. -/
  missingReference : String := "glyphs/ascii/"
  deriving DecidableEq, Repr

/-- How the work is done. -/
structure Processing where
  /-- The number of workers, chosen by the machine where none is given. -/
  workers : Option Nat := some 1
  deriving DecidableEq, Repr

/-- What is logged, and where. -/
structure LogSettings where
  file : Option Path := none
  consoleLevel : String := "WARNING"
  fileLevel : String := "DEBUG"
  deriving DecidableEq, Repr

/-- The settings of a font. -/
structure Settings where
  naming : Naming := {}
  raster : RasterSize := {}
  metrics : Metrics := {}
  weights : WeightClasses := {}
  corpus : CorpusRules := {}
  processing : Processing := {}
  log : LogSettings := {}
  /-- The directory from which relative paths are seen. -/
  projectRoot : Path := Path.here
  deriving DecidableEq, Repr

namespace Settings

instance : Inhabited Settings :=
  ⟨{}⟩

/-- The height of the em square: that of a raster. -/
def unitsPerEm (settings : Settings) : Int :=
  settings.metrics.pixelSize * settings.raster.height

/-- The advance of a glyph that is no ligature. -/
def advance (settings : Settings) : Int :=
  settings.metrics.pixelSize * settings.raster.width

/-- How cells are placed in font units. -/
def scale (settings : Settings) : Scale :=
  ⟨settings.metrics.pixelSize, settings.raster.baselineRow⟩

/-- A configured path as seen from the project root. -/
def resolve (settings : Settings) (path : Path) : Path :=
  settings.projectRoot.join path

/-- The directories of glyph files. -/
def glyphDirectories (settings : Settings) : List Path :=
  settings.corpus.directories.map settings.resolve

/-- The greatest codepoint. -/
def maxCodepoint : Nat := 0x10FFFF

/-- The bounds that settings in use keep. The form of the version is looked at where it is
read. -/
structure IsAccepted (settings : Settings) : Prop where
  family_ne : settings.naming.family ≠ ""
  width_pos : 0 < settings.raster.width
  height_pos : 0 < settings.raster.height
  baseline_le : settings.raster.baselineRow ≤ settings.raster.height
  pixelSize_pos : 0 < settings.metrics.pixelSize
  regular_mem : 1 ≤ settings.weights.regular ∧ settings.weights.regular ≤ 1000
  bold_mem : 1 ≤ settings.weights.bold ∧ settings.weights.bold ≤ 1000
  required_le : settings.corpus.requiredStart ≤ settings.corpus.requiredEnd
  requiredEnd_le : settings.corpus.requiredEnd ≤ maxCodepoint
  workers_pos : ∀ count ∈ settings.processing.workers, 0 < count

end Settings

end PixelFont
