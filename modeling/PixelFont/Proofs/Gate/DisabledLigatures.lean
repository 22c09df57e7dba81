import PixelFont.Proofs.Build.Session
import PixelFont.Proofs.Gate.Forms

/-!
Ligatures where they are disabled. The gate only warns about them, and they are not compiled, so
that a corpus may be replaced by what is left of it without its ligatures: the errors are the same,
and so is the font of each weight. Which weights are built is another matter. A ligature that is
drawn bold asks for a bold font although nothing is compiled of it, and where no bold glyphs are
derived it may be the only glyph that does. Main statement: `build_withoutLigatures`.
-/

set_option autoImplicit false

namespace PixelFont

/-- The corpus without its ligatures. -/
def Corpus.withoutLigatures (corpus : Corpus) : Corpus :=
  { corpus with glyphs := corpus.glyphs.filter fun glyph ↦ !glyph.isLigature }

theorem Corpus.mem_withoutLigatures_iff {corpus : Corpus} {glyph : Glyph} :
    glyph ∈ corpus.withoutLigatures.glyphs ↔
      glyph ∈ corpus.glyphs ∧ glyph.isLigature = false := by
  rw [withoutLigatures, List.mem_filter, Bool.not_eq_true']

namespace Gate

/-- A bold font is asked for by ligatures alone: bold glyphs are not derived, some are drawn, and
these are ligatures. -/
def OnlyLigaturesAreBold (rules : CorpusRules) (glyphs : List Glyph) : Prop :=
  rules.deriveBold = false ∧ (∃ glyph ∈ glyphs, glyph.weight = .bold) ∧
    ∀ glyph ∈ glyphs, glyph.weight = .bold → glyph.isLigature = true

variable {settings : Settings} {view : Viewpoint} {corpus : Corpus}

/-! ### Errors -/

/-- Where ligatures are disabled, the glyphs looked at are those that are left without them. -/
theorem activeGlyphs_withoutLigatures (hdisabled : settings.corpus.ligatures = false) :
    activeGlyphs settings corpus.withoutLigatures.glyphs =
      activeGlyphs settings corpus.glyphs := by
  simp only [activeGlyphs, hdisabled, Bool.false_or, Corpus.withoutLigatures, List.filter_filter,
    Bool.and_self]

theorem errors_report (settings : Settings) (view : Viewpoint) (corpus : Corpus) :
    (report settings view corpus).errors =
      ((findings settings view corpus).filter (·.defect.severity == .error)).map
        Finding.issue := by
  rw [Report.errors, report, List.filter_map]
  rfl

/-- Items that give nothing may be left out. -/
theorem flatMap_filter_eq {α β : Type} {keep : α → Bool} {give : α → List β} {items : List α}
    (hnothing : ∀ item ∈ items, keep item = false → give item = []) :
    (items.filter keep).flatMap give = items.flatMap give := by
  induction items with
  | nil => rfl
  | cons item items ih =>
    rw [List.forall_mem_cons] at hnothing
    rw [List.flatMap_cons, List.filter_cons, ← ih hnothing.2]
    split
    · rw [List.flatMap_cons]
    · rename_i hdropped
      rw [Bool.not_eq_true] at hdropped
      rw [hnothing.1 hdropped, List.nil_append]

/-- A ligature that is passed over gives no error. -/
theorem filter_glyphFindings_eq_nil (hdisabled : settings.corpus.ligatures = false) {glyph : Glyph}
    (hkind : glyph.isLigature = true) :
    (glyphFindings settings view glyph).filter (·.defect.severity == .error) = [] := by
  simp [glyphFindings, hkind, hdisabled, Defect.severity]

/-- Where ligatures are disabled, the errors are those found without them. -/
theorem errors_report_withoutLigatures (hdisabled : settings.corpus.ligatures = false) :
    (report settings view corpus.withoutLigatures).errors =
      (report settings view corpus).errors := by
  have hglyphs : (corpus.withoutLigatures.glyphs.flatMap (glyphFindings settings view)).filter
        (·.defect.severity == .error) =
      (corpus.glyphs.flatMap (glyphFindings settings view)).filter
        (·.defect.severity == .error) := by
    rw [List.filter_flatMap, List.filter_flatMap]
    refine flatMap_filter_eq fun glyph _ hkind ↦ filter_glyphFindings_eq_nil hdisabled ?_
    simpa using hkind
  rw [errors_report, errors_report, findings, findings, activeGlyphs_withoutLigatures hdisabled]
  simp only [List.filter_append, hglyphs]
  rfl

/-! ### Fonts -/

/-- The bold form of a character depends on the characters of the corpus alone. -/
theorem mem_boldIdentities_withoutLigatures_iff {glyph : Glyph} {codepoint : Int}
    (hencoding : glyph.encoding? = some codepoint) :
    glyph.identity ∈ Glyph.boldIdentities corpus.withoutLigatures.glyphs ↔
      glyph.identity ∈ Glyph.boldIdentities corpus.glyphs := by
  simp only [Weight.mem_boldIdentities_iff, Corpus.mem_withoutLigatures_iff]
  constructor
  · rintro ⟨other, ⟨hother, -⟩, hbold, hsame⟩
    exact ⟨other, hother, hbold, hsame⟩
  · rintro ⟨other, hother, hbold, hsame⟩
    rw [identity_of_encoding? hencoding] at hsame ⊢
    have hkind := (encoding?_eq_some_iff.mp (encoding?_eq_some_iff_identity.mpr hsame)).1
    exact ⟨other, ⟨hother, hkind⟩, hbold, hsame⟩

/-- Where ligatures are disabled, the glyphs compiled of a publishable corpus are those compiled
without its ligatures. -/
theorem IsPublishable.selected_withoutLigatures (hpublishable : IsPublishable settings corpus)
    (hdisabled : settings.corpus.ligatures = false) (weight : Weight) :
    Compilation.selected settings corpus.withoutLigatures.glyphs weight =
      Compilation.selected settings corpus.glyphs weight := by
  rw [selected_eq, selected_eq, activeGlyphs_withoutLigatures hdisabled]
  refine List.filterMap_congr fun glyph hglyph ↦ ?_
  have hkind : glyph.isLigature = false := by
    simpa [hdisabled] using (mem_activeGlyphs_iff.mp hglyph).2
  obtain ⟨codepoint, hencoding, -⟩ := (hpublishable.drawn glyph hglyph).encoding? hkind
  cases weight with
  | regular => rfl
  | bold =>
    simp only [Weight.form?, Glyph.boldForm?, List.contains_iff_mem,
      mem_boldIdentities_withoutLigatures_iff hencoding]

/-! ### Weights -/

theorem mem_weightsFor_iff {glyphs : List Glyph} :
    .bold ∈ settings.weightsFor glyphs ↔
      settings.corpus.deriveBold = true ∨ ∃ glyph ∈ glyphs, glyph.weight = .bold := by
  unfold Settings.weightsFor
  split
  · rename_i hbold
    simpa using hbold
  · rename_i hbold
    simpa using hbold

/-- The weights of the fonts of two corpora are the same if both have a bold one or none has. -/
theorem weightsFor_eq_iff {first second : List Glyph} :
    settings.weightsFor first = settings.weightsFor second ↔
      (.bold ∈ settings.weightsFor first ↔ .bold ∈ settings.weightsFor second) := by
  unfold Settings.weightsFor
  split <;> split <;> simp

/-- Without its ligatures, a corpus has fonts of the same weights unless ligatures alone ask for a
bold one. -/
theorem weightsFor_withoutLigatures_iff :
    settings.weightsFor corpus.withoutLigatures.glyphs = settings.weightsFor corpus.glyphs ↔
      ¬ OnlyLigaturesAreBold settings.corpus corpus.glyphs := by
  simp only [weightsFor_eq_iff, mem_weightsFor_iff, Corpus.mem_withoutLigatures_iff,
    OnlyLigaturesAreBold]
  cases settings.corpus.deriveBold with
  | true => simp
  | false =>
    simp only [Bool.false_eq_true, false_or, true_and, not_and, not_forall, exists_prop,
      Bool.not_eq_true]
    constructor
    · intro hsame hbold
      obtain ⟨glyph, ⟨hglyph, hkind⟩, hweight⟩ := hsame.mpr hbold
      exact ⟨glyph, hglyph, hweight, hkind⟩
    · intro hdrawn
      refine ⟨fun ⟨glyph, ⟨hglyph, _⟩, hweight⟩ ↦ ⟨glyph, hglyph, hweight⟩, fun hbold ↦ ?_⟩
      obtain ⟨glyph, hglyph, hweight, hkind⟩ := hdrawn hbold
      exact ⟨glyph, ⟨hglyph, hkind⟩, hweight⟩

/-- Where ligatures are disabled, a corpus gives the same errors as without them, and behind the
gate the same font of each weight. The fonts built are the same, with the same traces, unless
ligatures alone ask for a bold font; exactly then the weights differ. -/
theorem build_withoutLigatures {value : Value} {session : Session}
    (hread : Settings.ofValue value = .value session.settings)
    (hdisabled : session.settings.corpus.ligatures = false) (view : Viewpoint) (corpus : Corpus) :
    (report session.settings view corpus.withoutLigatures).errors =
        (report session.settings view corpus).errors ∧
      (report session.settings view corpus.withoutLigatures).isValid =
        (report session.settings view corpus).isValid ∧
      (session.settings.weightsFor corpus.withoutLigatures.glyphs =
          session.settings.weightsFor corpus.glyphs ↔
        ¬ OnlyLigaturesAreBold session.settings.corpus corpus.glyphs) ∧
      ((report session.settings view corpus).isValid = true →
        (∀ weight, ∃ compiled, (session.compile corpus.glyphs weight).result = .ok compiled ∧
          (session.compile corpus.withoutLigatures.glyphs weight).result = .ok compiled) ∧
        (¬ OnlyLigaturesAreBold session.settings.corpus corpus.glyphs → ∀ directory,
          session.buildCorpus directory corpus.withoutLigatures.glyphs =
            session.buildCorpus directory corpus.glyphs)) := by
  have herrors : (report session.settings view corpus.withoutLigatures).errors =
      (report session.settings view corpus).errors := errors_report_withoutLigatures hdisabled
  refine ⟨herrors, congrArg List.isEmpty herrors, weightsFor_withoutLigatures_iff,
    fun hvalid ↦ ?_⟩
  have hpublishable := isPublishable_of_isValid hread hvalid
  have hselected := hpublishable.selected_withoutLigatures hdisabled
  refine ⟨fun weight ↦ ?_, fun hweights directory ↦ ?_⟩
  · have hcompiled := hpublishable.result_compile hread weight
    refine ⟨_, hcompiled, ?_⟩
    rw [Session.compile_congr (hselected weight), hcompiled]
  · exact Session.buildCorpus_congr directory (weightsFor_withoutLigatures_iff.mpr hweights)
      hselected

/-- Where bold glyphs are derived, a ragged ligature that is drawn bold changes nothing about the
fonts of a letter. -/
theorem build_withoutLigatures_ragged :
    let value : Value := .record [
      ("grid", .record [("width", .int 1), ("height", .int 1), ("baseline_row", .int 1)]),
      ("corpus", .record [("required_start", .int 65), ("required_end", .int 65),
        ("ligatures", .bool false)])]
    let settings : Settings :=
      { raster := ⟨1, 1, 1⟩
        corpus := { requiredStart := 65, requiredEnd := 65, ligatures := false } }
    let session : Session := { settings, tree := FileTree.empty [] }
    let letter : Glyph :=
      { label := "A", codepoint := some 65, grid := [[true]], rasterLines := ["X"] }
    let ragged : Glyph :=
      { label := "A", codepoint := none, grid := [[true], [true, true]], weight := .bold,
        kind := .ligature }
    let corpus : Corpus := { glyphs := [letter, ragged] }
    Settings.ofValue value = .value session.settings ∧
      session.settings.corpus.ligatures = false ∧
      (report session.settings session.view corpus).isValid = true ∧
      session.settings.weightsFor corpus.glyphs = [.regular, .bold] ∧
      ∀ directory, session.buildCorpus directory [letter] =
        session.buildCorpus directory [letter, ragged] := by
  intro value settings session letter ragged corpus
  have hread : Settings.ofValue value = .value session.settings := rfl
  have hdisabled : session.settings.corpus.ligatures = false := rfl
  have hvalid : (report session.settings session.view corpus).isValid = true := by decide +kernel
  have hweights : ¬ OnlyLigaturesAreBold session.settings.corpus corpus.glyphs :=
    fun hbold ↦ absurd hbold.1 (by decide)
  obtain ⟨-, -, -, hfonts⟩ := build_withoutLigatures hread hdisabled session.view corpus
  exact ⟨hread, hdisabled, hvalid, rfl, (hfonts hvalid).2 hweights⟩

/-- Where ligatures are disabled and bold glyphs are not derived, a ligature that is drawn bold has
a bold font built of a letter that is drawn regular. Without the ligature, there is none. -/
theorem weightsFor_withoutLigatures_lone :
    let value : Value := .record [
      ("grid", .record [("width", .int 1), ("height", .int 1), ("baseline_row", .int 1)]),
      ("corpus", .record [("required_start", .int 65), ("required_end", .int 65),
        ("ligatures", .bool false), ("derive_bold", .bool false)])]
    let settings : Settings :=
      { raster := ⟨1, 1, 1⟩
        corpus :=
          { requiredStart := 65, requiredEnd := 65, ligatures := false, deriveBold := false } }
    let session : Session := { settings, tree := FileTree.empty [] }
    let letter : Glyph :=
      { label := "A", codepoint := some 65, grid := [[true]], rasterLines := ["X"] }
    let pair : Glyph :=
      { label := "AA", codepoint := none, grid := [[true, true]], weight := .bold,
        components := some ["A", "A"], kind := .ligature, rasterLines := ["XX"] }
    let corpus : Corpus := { glyphs := [letter, pair] }
    Settings.ofValue value = .value session.settings ∧
      session.settings.corpus.ligatures = false ∧
      corpus.withoutLigatures.glyphs = [letter] ∧
      (report session.settings session.view corpus).isValid = true ∧
      (report session.settings session.view corpus.withoutLigatures).isValid = true ∧
      session.settings.weightsFor corpus.glyphs = [.regular, .bold] ∧
      session.settings.weightsFor corpus.withoutLigatures.glyphs = [.regular] ∧
      (session.buildCorpus Path.here corpus.glyphs).result.toOption.map List.length = some 2 ∧
      (session.buildCorpus Path.here corpus.withoutLigatures.glyphs).result.toOption.map
        List.length = some 1 := by
  intro value settings session letter pair corpus
  refine ⟨rfl, rfl, by decide, ?_, ?_, rfl, rfl, ?_, ?_⟩
  · decide +kernel
  · decide +kernel
  · decide +kernel
  · decide +kernel

end Gate

end PixelFont
