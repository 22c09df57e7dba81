import PixelFont.Corpus.Basic
import PixelFont.FileTree.Basic
import PixelFont.Gate.Defect
import PixelFont.Settings.Basic

/-!
The gate that a corpus passes before a font is built. Every check runs on every glyph, and the
findings come in a fixed order: files rejected, then glyph by glyph, then the codepoints, labels,
required glyphs and components of the corpus as a whole. Where ligatures are disabled, they are
only warned about.
-/

set_option autoImplicit false

namespace PixelFont

namespace Gate

/-! ### Naming of sources -/

/-- From where the sources of findings are named: those below the root are shown as seen from
it. -/
structure Viewpoint where
  workingDirectory : Place
  root : Path
  deriving DecidableEq, Repr

/-- The place of a path, if it can be one. -/
def placeOf? (workingDirectory : Place) (path : Path) : Option Place :=
  if path.components.any fun name ↦ name.toList.contains '\x00' then none
  else some (path.resolve workingDirectory)

/-- The text of a path as seen from a root, or as it stands where it is not below the root. -/
def Viewpoint.show (view : Viewpoint) (path : Path) : String :=
  match placeOf? view.workingDirectory path, placeOf? view.workingDirectory view.root with
  | some place, some root =>
    if root.isPrefixOf place then
      (Path.ofComponents .none (place.drop root.length)).toText
    else path.toText
  | _, _ => path.toText

/-- How findings refer to a glyph. -/
def Viewpoint.reference (view : Viewpoint) (glyph : Glyph) : String :=
  match glyph.source with
  | some path => view.show path
  | none => glyph.label

/-- How findings refer to several glyphs. -/
def Viewpoint.references (view : Viewpoint) (glyphs : List Glyph) : String :=
  ", ".intercalate (glyphs.map view.reference)

/-! ### Single glyphs -/

/-- The number of columns that the rows of a glyph should have: that of a character, as often as
a ligature has components. A ligature without components keeps its own width if that is a
multiple. -/
def expectedWidth (raster : RasterSize) (glyph : Glyph) : Nat :=
  if !glyph.isLigature then raster.width
  else if !glyph.componentLabels.isEmpty then raster.width * glyph.componentLabels.length
  else if 0 < glyph.grid.width ∧ glyph.grid.width % raster.width = 0 then glyph.grid.width
  else raster.width

/-- What is wrong with the height of a glyph. -/
def heightDefects (raster : RasterSize) (glyph : Glyph) : List Defect :=
  if glyph.grid.height = raster.height then []
  else [.height glyph.grid.height raster.height]

/-- What is wrong with the width of a glyph's first row. -/
def widthDefects (raster : RasterSize) (glyph : Glyph) : List Defect :=
  let columns := glyph.grid.width
  let expected := expectedWidth raster glyph
  if glyph.isLigature then
    if columns = 0 ∨ columns % raster.width ≠ 0 then [.ligatureWidth columns raster.width]
    else if !glyph.componentLabels.isEmpty ∧ columns ≠ expected then
      [.componentWidth columns expected glyph.componentLabels.length]
    else []
  else if columns = raster.width then []
  else [.width columns raster.width]

/-- The rows of other than the expected width. -/
def rowDefects (raster : RasterSize) (glyph : Glyph) : List Defect :=
  let expected := expectedWidth raster glyph
  (glyph.grid.zipIdx 1).filterMap fun (row, number) ↦
    if row.length = expected then none else some (.rowWidth number row.length expected)

/-- Whether a raster line is made of the two characters of rasters, of at least one. -/
def isRasterLine (line : String) : Bool :=
  !line.toList.isEmpty &&
    line.toList.all fun c ↦ c == Grid.filledChar || c == Grid.emptyChar

/-- The raster lines with other characters. -/
def lineDefects (glyph : Glyph) : List Defect :=
  (glyph.rasterLines.zipIdx 1).filterMap fun (line, number) ↦
    if isRasterLine line then none else some (.characters number line)

/-- What is wrong with the codepoint of a glyph. -/
def codepointDefects (glyph : Glyph) : List Defect :=
  match glyph.codepoint with
  | some codepoint =>
    if codepoint < 0 ∨ (Settings.maxCodepoint : Int) < codepoint then [.codepointRange codepoint]
    else if 0xD800 ≤ codepoint ∧ codepoint ≤ 0xDFFF then [.surrogate codepoint]
    else []
  | none => if glyph.isLigature then [] else [.noCodepoint]

/-- What is wrong with the components of a glyph. -/
def componentDefects (glyph : Glyph) : List Defect :=
  if glyph.isLigature && glyph.componentLabels.isEmpty then [.noComponents] else []

/-- What is wrong with a glyph on its own. -/
def glyphDefects (raster : RasterSize) (glyph : Glyph) : List Defect :=
  heightDefects raster glyph ++ widthDefects raster glyph ++ rowDefects raster glyph ++
    lineDefects glyph ++ codepointDefects glyph ++ componentDefects glyph

/-! ### Groups of glyphs -/

/-- Items grouped by a key, those without one left out: the keys in the order in which they first
occur, each with its items in their order. -/
def groups {α κ : Type} [BEq κ] (key : α → Option κ) (items : List α) : List (κ × List α) :=
  (items.filterMap key).eraseDups.map fun k ↦ (k, items.filter fun item ↦ key item == some k)

/-- The codepoint and the weight of a glyph, if it has a codepoint and is no ligature. -/
def codepointKey (glyph : Glyph) : Option (Int × Weight) :=
  if glyph.isLigature then none else glyph.codepoint.map fun codepoint ↦ (codepoint, glyph.weight)

/-- The kind, the label and the weight of a glyph. -/
def labelKey (glyph : Glyph) : Option (GlyphKind × String × Weight) :=
  some (glyph.kind, glyph.label, glyph.weight)

/-- The finding on the glyphs of a codepoint and a weight, if there are several. -/
def codepointFinding? (view : Viewpoint) (group : (Int × Weight) × List Glyph) : Option Finding :=
  if group.2.length < 2 then none
  else some ⟨view.references group.2, .sharedCodepoint group.1.2 group.1.1⟩

/-- The distinct codepoints of some glyphs in increasing order. -/
def codepointsOf (glyphs : List Glyph) : List Int :=
  (glyphs.filterMap Glyph.codepoint).eraseDups.mergeSort

/-- The finding on the glyphs of a kind, a label and a weight: several ligatures, or several
characters with more than one codepoint among them. -/
def labelFinding? (view : Viewpoint) (group : (GlyphKind × String × Weight) × List Glyph) :
    Option Finding :=
  let ((kind, label, weight), glyphs) := group
  if glyphs.length < 2 then none
  else
    match kind with
    | .ligature => some ⟨view.references glyphs, .sharedLigatureLabel weight label⟩
    | .standalone =>
      let codepoints := codepointsOf glyphs
      if codepoints.length < 2 then none
      else some ⟨view.references glyphs, .sharedLabel weight label codepoints⟩

/-! ### The corpus as a whole -/

/-- The codepoints that regular characters draw. -/
def drawnCodepoints (glyphs : List Glyph) : List Int :=
  (glyphs.filter fun glyph ↦ !glyph.isLigature && glyph.weight == .regular).filterMap
    Glyph.codepoint

/-- The required codepoints that no regular character draws. -/
def missingCodepoints (rules : CorpusRules) (glyphs : List Glyph) : List Nat :=
  (List.range' rules.requiredStart (rules.requiredEnd + 1 - rules.requiredStart)).filter
    fun (codepoint : Nat) ↦ !(drawnCodepoints glyphs).contains (codepoint : Int)

/-- The components of a glyph that are the label of no character. -/
def unknownComponents (glyphs : List Glyph) (glyph : Glyph) : List String :=
  glyph.componentLabels.filter fun label ↦
    !glyphs.any fun other ↦ !other.isLigature && other.label == label

/-- The finding on the components of a glyph, if it is a ligature of which some are unknown. -/
def componentFinding? (view : Viewpoint) (glyphs : List Glyph) (glyph : Glyph) : Option Finding :=
  let unknown := unknownComponents glyphs glyph
  if glyph.isLigature && !unknown.isEmpty then
    some ⟨view.reference glyph, .unknownComponents unknown⟩
  else none

/-- The glyphs that are looked at: all of them, or all but the ligatures where those are
disabled. -/
def activeGlyphs (settings : Settings) (glyphs : List Glyph) : List Glyph :=
  glyphs.filter fun glyph ↦ settings.corpus.ligatures || !glyph.isLigature

/-- The findings on the files rejected, in the order of their names. -/
def rejectionFindings (view : Viewpoint) (rejections : List Rejection) : List Finding :=
  (rejections.mergeSort fun first second ↦ decide (first.path.toText ≤ second.path.toText)).map
    fun rejection ↦ ⟨view.show rejection.path, .unreadable rejection.reason⟩

/-- The findings on a glyph. -/
def glyphFindings (settings : Settings) (view : Viewpoint) (glyph : Glyph) : List Finding :=
  let defects :=
    if glyph.isLigature && !settings.corpus.ligatures then [Defect.ligaturesDisabled]
    else glyphDefects settings.raster glyph
  defects.map fun defect ↦ ⟨view.reference glyph, defect⟩

/-- The findings on a corpus. -/
def findings (settings : Settings) (view : Viewpoint) (corpus : Corpus) : List Finding :=
  let active := activeGlyphs settings corpus.glyphs
  rejectionFindings view corpus.rejections ++
    corpus.glyphs.flatMap (glyphFindings settings view) ++
    (groups codepointKey active).filterMap (codepointFinding? view) ++
    (groups labelKey active).filterMap (labelFinding? view) ++
    (missingCodepoints settings.corpus active).map (fun codepoint ↦
      ⟨settings.corpus.missingReference, .missingGlyph codepoint⟩) ++
    active.filterMap (componentFinding? view active)

/-- The report on a corpus. -/
def report (settings : Settings) (view : Viewpoint) (corpus : Corpus) : Report :=
  ⟨(findings settings view corpus).map Finding.issue⟩

end Gate

end PixelFont
