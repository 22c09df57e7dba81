import PixelFont.Font.Compiled
import PixelFont.Glyph.Record
import PixelFont.Glyph.Selection
import PixelFont.Outline.Mapping
import PixelFont.Outline.Record
import PixelFont.Raster.Compaction
import PixelFont.Settings.Record

/-!
Compilation of the glyphs of one weight: the raster of every glyph is covered by rectangles, which
become the contours of its outline. A single worker compiles the glyphs one after the other;
several workers are handed records of glyphs and settings and hand back records of outlines. In
either way the outlines come in the order of the glyphs, up to the first glyph that fails.
-/

set_option autoImplicit false

namespace PixelFont

/-- A glyph that fails to compile, by its label, and the reason. -/
structure GlyphFailure where
  label : String
  reason : String
  deriving DecidableEq, Repr

/-- The wording of a failure. -/
def GlyphFailure.message (failure : GlyphFailure) : String :=
  "Error compiling glyph '" ++ failure.label ++ "': " ++ failure.reason

/-- Why a record of a glyph is not compiled. -/
inductive CompileFault where
  | record (error : RecordError)
  | settings (first : SettingsIssue)
  | raster (error : RasterError)
  deriving Repr

/-- The wording of a fault. -/
def CompileFault.message : CompileFault → String
  | .record error => error.message
  | .settings first => first.text
  | .raster error => error.message

/-- What a worker hands back for a glyph: the record of its outline and the number of its
rectangles. -/
structure CompiledRecord where
  outline : Value
  rectangles : Nat
  deriving Repr

namespace Compilation

/-- The outline of a glyph. -/
def outline (settings : Settings) (glyph : Glyph) : Except RasterError Outline :=
  match glyph.grid.compact with
  | .error error => .error error
  | .ok rectangles =>
    .ok (glyph.outline rectangles settings.scale settings.raster.width)

/-! ### Workers -/

/-- The record of the outline of a glyph, given by records. The glyph is read before the
settings. -/
def record (settings glyph : Value) : Except CompileFault CompiledRecord :=
  match Glyph.ofValue glyph with
  | .error error => .error (.record error)
  | .ok read =>
    match Settings.ofValue settings with
    | .issues first _ => .error (.settings first)
    | .value accepted =>
      match read.grid.compact with
      | .error error => .error (.raster error)
      | .ok rectangles =>
        let outline := read.outline rectangles accepted.scale accepted.raster.width
        .ok ⟨outline.toValue, rectangles.length⟩

/-- The label by which a worker names a glyph. -/
def recordLabel (glyph : Value) : String :=
  (((glyph.asRecord?).bind (Value.lookup? · "label")).bind Value.asText?).getD "unknown"

/-- The outline of a glyph as a worker hands it back. -/
def outlineByWorker (settings : Settings) (glyph : Glyph) : Except String Outline :=
  match record settings.toValue glyph.toValue with
  | .error fault => .error fault.message
  | .ok compiled =>
    match Outline.ofValue? compiled.outline with
    | some outline => .ok outline
    | none => .error "malformed outline"

/-- The outline of a glyph by as many workers as the settings say. -/
def outlineOrReason (settings : Settings) (glyph : Glyph) : Except String Outline :=
  if settings.processing.workers = some 1 then
    match outline settings glyph with
    | .ok compiled => .ok compiled
    | .error error => .error error.message
  else outlineByWorker settings glyph

/-! ### Runs -/

/-- A run over the glyphs of a weight: those compiled, in order, with their outlines, and the
glyph that fails, if one does, with the reason. -/
structure Run where
  /-- The number of glyphs that the run set out to compile. -/
  total : Nat
  compiled : List (Glyph × Outline)
  failure : Option (Glyph × String)
  deriving DecidableEq, Repr

/-- The glyphs compiled of some, up to the first that fails, and that one. -/
def compileAll (compile : Glyph → Except String Outline) :
    List Glyph → List (Glyph × Outline) × Option (Glyph × String)
  | [] => ([], none)
  | glyph :: glyphs =>
    match compile glyph with
    | .error reason => ([], some (glyph, reason))
    | .ok outline =>
      let (compiled, failure) := compileAll compile glyphs
      ((glyph, outline) :: compiled, failure)

/-- The glyphs of a weight that are compiled: without ligatures where those are disabled. -/
def selected (settings : Settings) (corpus : List Glyph) (weight : Weight) : List Glyph :=
  (weight.select corpus).filter fun glyph ↦ settings.corpus.ligatures || !glyph.isLigature

/-- The run over the glyphs of a weight. -/
def run (settings : Settings) (corpus : List Glyph) (weight : Weight) : Run :=
  let glyphs := selected settings corpus weight
  let (compiled, failure) := compileAll (outlineOrReason settings) glyphs
  ⟨glyphs.length, compiled, failure⟩

/-- The resolution of the ligatures of a weight, of which there are none where those are
disabled. -/
def resolution (settings : Settings) (corpus : List Glyph) (weight : Weight) : Resolution :=
  if settings.corpus.ligatures then Resolution.ofGlyphs (selected settings corpus weight)
  else ⟨[], []⟩

/-- What the font of a weight is assembled from, unless a glyph fails. -/
def font (settings : Settings) (corpus : List Glyph) (weight : Weight) :
    Except GlyphFailure CompiledFont :=
  let run := run settings corpus weight
  match run.failure with
  | some (glyph, reason) => .error ⟨glyph.label, reason⟩
  | none =>
    .ok ⟨weight, run.compiled.map (·.2), (resolution settings corpus weight).substitutions⟩

/-- A step forward in a run. -/
structure Progress where
  completed : Nat
  total : Nat
  label : String
  succeeded : Bool
  deriving DecidableEq, Repr

/-- The steps of a run. -/
def Run.progress (run : Run) : List Progress :=
  (run.compiled.zipIdx 1).map (fun entry ↦ ⟨entry.2, run.total, entry.1.1.label, true⟩) ++
    run.failure.toList.map fun entry ↦
      ⟨run.compiled.length + 1, run.total, entry.1.label, false⟩

end Compilation

/-- The weights of the fonts built from a corpus: always the regular one, and the bold one if it
may be derived or a glyph is drawn for it. -/
def Settings.weightsFor (settings : Settings) (corpus : List Glyph) : List Weight :=
  if settings.corpus.deriveBold || corpus.any (·.weight == .bold) then [.regular, .bold]
  else [.regular]

end PixelFont
