import Mathlib.Algebra.GroupWithZero.Nat
import PixelFont.Build.Compilation
import PixelFont.Proofs.Glyph.Selection

/-!
What the run over the glyphs of a weight compiles: all of them if none fails, and those before the
first that fails if one does. For fonts of several weights (`Compilation.AreFontsOf`) the glyphs
compiled are those of the weights in turn, and their outlines are those of the fonts. Of these
glyphs, those are derived that no glyph of the corpus draws bold. Main statements:
`Compilation.AreFontsOf.exists_append_compiledOf`, `Compilation.countP_derived_weightsFor`.
-/

set_option autoImplicit false

namespace PixelFont

open Number

theorem CompiledFont.rectangleCount_eq_sum (font : CompiledFont) :
    font.rectangleCount = (font.outlines.map (·.contours.length)).sum := by
  rw [rectangleCount]
  induction font.outlines with
  | nil => rfl
  | cons outline outlines ih => rw [total, ih, List.map_cons, List.sum_cons]

theorem CompiledFont.sum_rectangleCount (fonts : List CompiledFont) :
    (fonts.map rectangleCount).sum =
      ((fonts.flatMap (·.outlines)).map (·.contours.length)).sum := by
  induction fonts with
  | nil => rfl
  | cons font fonts ih =>
    rw [List.map_cons, List.sum_cons, ih, rectangleCount_eq_sum, List.flatMap_cons,
      List.map_append, List.sum_append]

/-! ### Runs -/

namespace Compilation

variable {compile : Glyph → Except String Outline} {settings : Settings} {corpus : List Glyph}
  {weight : Weight}

/-- Glyphs of which none fails are all compiled. -/
theorem map_fst_compileAll {glyphs : List Glyph} (hnone : (compileAll compile glyphs).2 = none) :
    (compileAll compile glyphs).1.map Prod.fst = glyphs := by
  induction glyphs with
  | nil => rfl
  | cons glyph glyphs ih =>
    rw [compileAll] at hnone ⊢
    cases hcompile : compile glyph with
    | error reason => simp [hcompile] at hnone
    | ok outline =>
      rw [hcompile] at hnone
      exact congrArg (glyph :: ·) (ih hnone)

/-- Of glyphs of which one fails, exactly those before it are compiled. -/
theorem exists_append_of_compileAll {glyphs : List Glyph} {failed : Glyph} {reason : String}
    (hfailed : (compileAll compile glyphs).2 = some (failed, reason)) :
    compile failed = .error reason ∧ ∃ after,
      glyphs = (compileAll compile glyphs).1.map Prod.fst ++ failed :: after := by
  induction glyphs with
  | nil => simp [compileAll] at hfailed
  | cons glyph glyphs ih =>
    rw [compileAll] at hfailed ⊢
    cases hcompile : compile glyph with
    | error found =>
      simp only [hcompile, Option.some.injEq, Prod.mk.injEq] at hfailed
      obtain ⟨rfl, rfl⟩ := hfailed
      exact ⟨hcompile, glyphs, rfl⟩
    | ok outline =>
      rw [hcompile] at hfailed
      obtain ⟨hreason, after, hafter⟩ := ih hfailed
      exact ⟨hreason, after, congrArg (glyph :: ·) hafter⟩

/-- Every outline of a run is what its glyph compiles to. -/
theorem compile_of_mem_compileAll {glyphs : List Glyph} {entry : Glyph × Outline}
    (hentry : entry ∈ (compileAll compile glyphs).1) : compile entry.1 = .ok entry.2 := by
  induction glyphs with
  | nil => simp [compileAll] at hentry
  | cons glyph glyphs ih =>
    rw [compileAll] at hentry
    cases hcompile : compile glyph with
    | error reason => simp [hcompile] at hentry
    | ok outline =>
      rw [hcompile] at hentry
      rcases List.mem_cons.mp hentry with rfl | hlater
      · exact hcompile
      · exact ih hlater

theorem font_eq_ok_iff {compiled : CompiledFont} :
    font settings corpus weight = .ok compiled ↔
      (run settings corpus weight).failure = none ∧
        compiled = ⟨weight, (run settings corpus weight).compiled.map (·.2),
          (resolution settings corpus weight).substitutions⟩ := by
  cases hfailure : (run settings corpus weight).failure <;> simp [font, hfailure, eq_comm]

theorem font_eq_error_iff {failure : GlyphFailure} :
    font settings corpus weight = .error failure ↔
      ∃ glyph, (run settings corpus weight).failure = some (glyph, failure.reason) ∧
        glyph.label = failure.label := by
  cases hfailure : (run settings corpus weight).failure with
  | none => simp [font, hfailure]
  | some entry =>
    cases failure
    simp [font, hfailure, Prod.ext_iff, and_comm, eq_comm]

/-! ### Fonts -/

/-- The glyphs compiled for some weights with their outlines, weight by weight. -/
def compiledOf (settings : Settings) (corpus : List Glyph) (weights : List Weight) :
    List (Glyph × Outline) :=
  weights.flatMap fun weight ↦ (run settings corpus weight).compiled

/-- Fonts compiled for some weights, in turn. -/
abbrev AreFontsOf (settings : Settings) (corpus : List Glyph) (weights : List Weight)
    (fonts : List CompiledFont) : Prop :=
  List.Forall₂ (fun weight compiled ↦ font settings corpus weight = .ok compiled) weights fonts

variable {weights : List Weight} {fonts : List CompiledFont}

theorem AreFontsOf.map_weight (hfonts : AreFontsOf settings corpus weights fonts) :
    fonts.map (·.weight) = weights := by
  induction hfonts with
  | nil => rfl
  | cons hfont _ ih =>
    obtain ⟨-, rfl⟩ := font_eq_ok_iff.mp hfont
    exact congrArg (_ :: ·) ih

/-- The glyphs compiled for fonts are those of their weights. -/
theorem AreFontsOf.map_fst_compiledOf (hfonts : AreFontsOf settings corpus weights fonts) :
    (compiledOf settings corpus weights).map Prod.fst =
      weights.flatMap (selected settings corpus) := by
  induction hfonts with
  | nil => rfl
  | cons hfont _ ih =>
    have hselected := map_fst_compileAll (font_eq_ok_iff.mp hfont).1
    rw [List.flatMap_cons, ← ih, compiledOf, List.flatMap_cons, List.map_append]
    exact congrArg (· ++ _) hselected

/-- The outlines compiled for fonts are theirs. -/
theorem AreFontsOf.map_snd_compiledOf (hfonts : AreFontsOf settings corpus weights fonts) :
    (compiledOf settings corpus weights).map Prod.snd = fonts.flatMap (·.outlines) := by
  induction hfonts with
  | nil => rfl
  | cons hfont _ ih =>
    obtain ⟨-, rfl⟩ := font_eq_ok_iff.mp hfont
    rw [List.flatMap_cons, ← ih, compiledOf, List.flatMap_cons, List.map_append]
    rfl

/-- Glyphs compiled weight by weight up to one that fails are those before it. -/
theorem AreFontsOf.exists_append_compiledOf {done : List Weight} {weight : Weight}
    {failure : GlyphFailure} (hdone : AreFontsOf settings corpus done fonts)
    (hfailure : font settings corpus weight = .error failure) (rest : List Weight) :
    ∃ failed after, outlineOrReason settings failed = .error failure.reason ∧
      failed.label = failure.label ∧
      (done ++ weight :: rest).flatMap (selected settings corpus) =
        (compiledOf settings corpus (done ++ [weight])).map Prod.fst ++ failed :: after := by
  obtain ⟨failed, hfailed, hlabel⟩ := font_eq_error_iff.mp hfailure
  obtain ⟨hreason, after, hselected⟩ := exists_append_of_compileAll hfailed
  refine ⟨failed, after ++ rest.flatMap (selected settings corpus), hreason, hlabel, ?_⟩
  rw [List.flatMap_append, List.flatMap_cons, hselected, ← hdone.map_fst_compiledOf]
  simp [compiledOf, run]

theorem outlineOrReason_of_mem_compiledOf {entry : Glyph × Outline}
    (hentry : entry ∈ compiledOf settings corpus weights) :
    outlineOrReason settings entry.1 = .ok entry.2 := by
  obtain ⟨weight, -, hcompiled⟩ := List.mem_flatMap.mp hentry
  exact compile_of_mem_compileAll hcompiled

/-! ### Derived glyphs -/

/-- A regular glyph that is compiled and whose character no glyph of a corpus draws bold. -/
def LacksBold (settings : Settings) (corpus : List Glyph) (glyph : Glyph) : Prop :=
  glyph.weight = .regular ∧ (settings.corpus.ligatures = true ∨ glyph.isLigature = false) ∧
    ∀ other ∈ corpus, other.weight = .bold → other.identity ≠ glyph.identity

instance : DecidablePred (LacksBold settings corpus) :=
  fun _ ↦ inferInstanceAs (Decidable (_ ∧ _ ∧ _))

theorem lacksBold_iff_of_regular {glyph : Glyph} (hregular : glyph.weight = .regular) :
    LacksBold settings corpus glyph ↔
      glyph.identity ∉ Glyph.boldIdentities corpus ∧
        (settings.corpus.ligatures || !glyph.isLigature) = true := by
  rw [Weight.mem_boldIdentities_iff]
  push Not
  simp [LacksBold, hregular, and_comm]

/-- In the regular font nothing is derived, in the bold one what no glyph draws bold. -/
theorem countP_derived_selected (hdrawn : ∀ glyph ∈ corpus, glyph.derived = false)
    (weight : Weight) :
    (selected settings corpus weight).countP (·.derived) =
      if weight = .bold then corpus.countP (LacksBold settings corpus ·) else 0 := by
  rw [selected, List.countP_filter, Weight.select_eq_filterMap, List.countP_filterMap]
  cases weight with
  | regular =>
    rw [if_neg nofun, List.countP_eq_zero]
    intro glyph hglyph
    have hglyph := hdrawn glyph hglyph
    cases hweight : glyph.weight <;> simp [Weight.form?, hweight, hglyph]
  | bold =>
    rw [if_pos rfl]
    refine List.countP_congr fun glyph hglyph ↦ ?_
    have hglyph := hdrawn glyph hglyph
    have hderived : glyph.deriveBold.derived = true := rfl
    have hkind : glyph.deriveBold.isLigature = glyph.isLigature := rfl
    cases hweight : glyph.weight with
    | bold => simp [Weight.form?, Glyph.boldForm?, LacksBold, hweight, hglyph]
    | regular =>
      by_cases hbold : glyph.identity ∈ Glyph.boldIdentities corpus <;>
        simp [Weight.form?, Glyph.boldForm?, lacksBold_iff_of_regular hweight, hweight, hbold,
          hderived, hkind]

/-- Of the glyphs compiled for both fonts, those are derived that no glyph draws bold, if the bold
font is built. -/
theorem countP_derived_weightsFor (hdrawn : ∀ glyph ∈ corpus, glyph.derived = false) :
    ((settings.weightsFor corpus).flatMap (selected settings corpus)).countP
        (·.derived) =
      if .bold ∈ settings.weightsFor corpus then
        corpus.countP (LacksBold settings corpus ·)
      else 0 := by
  unfold Settings.weightsFor
  split <;> simp [countP_derived_selected hdrawn]

end Compilation

end PixelFont
