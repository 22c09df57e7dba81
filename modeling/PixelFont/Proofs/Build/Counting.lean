import PixelFont.Proofs.Build.Runs
import PixelFont.Proofs.Build.Session
import PixelFont.Proofs.Corpus.Reading
import PixelFont.Proofs.Settings.Acceptance

/-!
The statistics of a build describe its fonts. Every step of a build adds to the counters what it
compiles, resolves or saves (`BuildStatistics.gaining`), and what two steps in a row add is what
both do together (`gaining_gaining`), so after the fonts of some weights the counters are totals
over the outlines of these fonts. A glyph that fails ends the build: the counters then cover the
glyphs before it, of its own weight and of the weights before, and the failure alone. Main
statement: `Session.statistics_build`.
-/

set_option autoImplicit false

namespace PixelFont

open Number

/-- What the statistics tell of a font saved in two files. -/
def CompiledFont.output (font : CompiledFont) (paths : Path × Path) : WeightOutput :=
  ⟨font.weight, font.outlines.length, some paths.1, some paths.2⟩

/-- What the statistics tell of fonts saved does not depend on the files, these apart. -/
theorem CompiledFont.map_zipWith_output {α : Type} {told : WeightOutput → α}
    {content : CompiledFont → α} (htold : ∀ font paths, told (output font paths) = content font)
    {fonts : List CompiledFont} {paths : List (Path × Path)}
    (hlength : fonts.length = paths.length) :
    (List.zipWith output fonts paths).map told = fonts.map content :=
  List.ext_getElem (by simp [hlength]) (by simp [htold])

namespace BuildStatistics

/-- The statistics with some more glyphs compiled, substitutions made and fonts saved. -/
def gaining (stats : BuildStatistics) (entries : List (Glyph × Outline)) (substitutions : ℕ)
    (outputs : List WeightOutput) : BuildStatistics :=
  { stats with
    compiled := stats.compiled + entries.length
    derived := stats.derived + entries.countP (·.1.derived)
    empty := stats.empty + entries.countP (·.2.isEmpty)
    rectangles := stats.rectangles + (entries.map (·.2.contours.length)).sum
    substitutions := stats.substitutions + substitutions
    durations := stats.durations ++ entries.map fun _ ↦ Binary64.ofInt 0
    outputs := stats.outputs ++ outputs }

@[simp] theorem gaining_nil (stats : BuildStatistics) : stats.gaining [] 0 [] = stats := by
  simp [gaining]

/-- What is gained in two steps is gained in one. -/
theorem gaining_gaining (stats : BuildStatistics) (first second : List (Glyph × Outline))
    (substitutions more : ℕ) (outputs further : List WeightOutput) :
    (stats.gaining first substitutions outputs).gaining second more further =
      stats.gaining (first ++ second) (substitutions + more) (outputs ++ further) := by
  simp [gaining, Nat.add_assoc, Int.add_assoc]

end BuildStatistics

namespace Session

variable (session : Session)

/-! ### Steps -/

theorem statistics_noteEntry (entry : Glyph × Outline) :
    (session.noteEntry entry).statistics = session.statistics.gaining [entry] 0 [] := by
  obtain ⟨glyph, outline⟩ := entry
  unfold noteEntry noteCompiled
  simp only [statistics_record]
  cases hcontours : outline.contours with
  | nil =>
    cases hderived : glyph.derived <;>
      simp [BuildStatistics.addCompiled, BuildStatistics.gaining, Outline.isEmpty,
        hcontours, hderived]
  | cons first rest =>
    have hnonempty : (rest.length : Int) + 1 ≠ 0 := by omega
    cases hderived : glyph.derived <;>
      simp [BuildStatistics.addCompiled, BuildStatistics.gaining, Outline.isEmpty,
        hcontours, hderived, hnonempty]

theorem statistics_noteFailed (label reason : String) :
    (session.noteFailed label reason).statistics = session.statistics.addFailed label reason := by
  unfold noteFailed
  simp only [statistics_record]

theorem statistics_noteSkipped (label reason : String) :
    (session.noteSkipped label reason).statistics = session.statistics :=
  statistics_record _ _

theorem statistics_foldl_noteEntry (entries : List (Glyph × Outline)) :
    (entries.foldl noteEntry session).statistics = session.statistics.gaining entries 0 [] := by
  induction entries generalizing session with
  | nil => exact session.statistics.gaining_nil.symm
  | cons entry entries ih =>
    rw [List.foldl_cons, ih, statistics_noteEntry, BuildStatistics.gaining_gaining]
    rfl

/-- A run adds what it compiles, and its failure. -/
theorem statistics_afterRun (run : Compilation.Run) :
    (session.afterRun run).statistics =
      match run.failure with
      | some (glyph, reason) =>
        (session.statistics.gaining run.compiled 0 []).addFailed glyph.label reason
      | none => session.statistics.gaining run.compiled 0 [] := by
  unfold afterRun
  cases run.failure with
  | none => exact (statistics_foldl_noteEntry _ _).trans (by rw [statistics_record])
  | some entry =>
    exact (statistics_noteFailed _ _ _).trans
      (by rw [statistics_foldl_noteEntry, statistics_record])

/-- The resolution of ligatures adds the substitutions made. -/
theorem statistics_afterResolution (resolution : Resolution) :
    (session.afterResolution resolution).statistics =
      session.statistics.gaining [] resolution.substitutions.length [] := by
  have hskipped : (resolution.unresolved.foldl
      (fun session entry ↦ session.noteSkipped entry.1.label (skipReason entry.2)) session
        ).statistics = session.statistics := by
    refine List.foldlRecOn (motive := fun after : Session ↦ after.statistics = session.statistics)
      resolution.unresolved _ rfl fun after hafter entry _ ↦ ?_
    rw [statistics_noteSkipped, hafter]
  unfold afterResolution
  dsimp only
  rw [hskipped]
  simp [BuildStatistics.gaining]

variable {session} {directory : Path} {corpus : List Glyph} {weight : Weight}

theorem statistics_afterCompilation_of_ok {compiled : CompiledFont}
    (hfont : Compilation.font session.settings corpus weight = .ok compiled) :
    (session.afterCompilation corpus weight).statistics =
      session.statistics.gaining (Compilation.run session.settings corpus weight).compiled
        compiled.substitutions.length [] := by
  obtain ⟨hnone, rfl⟩ := Compilation.font_eq_ok_iff.mp hfont
  unfold afterCompilation
  simp only [hnone, statistics_afterResolution, statistics_afterRun,
    BuildStatistics.gaining_gaining, List.append_nil, Nat.zero_add]

theorem statistics_afterCompilation_of_error {failure : GlyphFailure}
    (hfont : Compilation.font session.settings corpus weight = .error failure) :
    (session.afterCompilation corpus weight).statistics =
      (session.statistics.gaining (Compilation.run session.settings corpus weight).compiled
        0 []).addFailed failure.label failure.reason := by
  obtain ⟨glyph, hfailed, hlabel⟩ := Compilation.font_eq_error_iff.mp hfont
  unfold afterCompilation
  simp only [hfailed, statistics_afterRun, hlabel]

/-- A font saved is told of by its weight, the number of its outlines and its files. -/
theorem statistics_saveFont {compiled : CompiledFont} {paths : Path × Path}
    (hsaved : (session.saveFont directory compiled).1 = .ok paths) :
    (session.saveFont directory compiled).2.statistics =
      session.statistics.gaining [] 0 [compiled.output paths] := by
  unfold saveFont at hsaved ⊢
  cases hfont : Font.assemble session.settings compiled with
  | error fault => simp [hfont] at hsaved
  | ok font =>
    rw [hfont] at hsaved
    dsimp only at hsaved ⊢
    split at hsaved
    · exact absurd hsaved nofun
    · obtain rfl := Except.ok.inj hsaved
      exact (statistics_record _ _).trans (by simp [BuildStatistics.gaining, CompiledFont.output])

theorem saveFont_ne_error_glyph {compiled : CompiledFont} {failure : GlyphFailure} :
    (session.saveFont directory compiled).1 ≠ .error (.glyph failure) := by
  unfold saveFont
  split
  · exact nofun
  · split <;> exact nofun

theorem of_result_buildWeight_eq_ok {paths : Path × Path}
    (hbuilt : (session.buildWeight directory corpus weight).result = .ok paths) :
    ∃ font, Compilation.font session.settings corpus weight = .ok font ∧
      (session.buildWeight directory corpus weight).session.statistics =
        session.statistics.gaining (Compilation.run session.settings corpus weight).compiled
          font.substitutions.length [font.output paths] := by
  unfold buildWeight at hbuilt ⊢
  cases hfont : Compilation.font session.settings corpus weight with
  | error failure => simp [compile, hfont, Except.mapError] at hbuilt
  | ok font =>
    refine ⟨font, rfl, ?_⟩
    simp only [compile, hfont, Except.mapError] at hbuilt ⊢
    rw [statistics_saveFont hbuilt, statistics_afterCompilation_of_ok hfont,
      BuildStatistics.gaining_gaining, List.append_nil, List.nil_append, Nat.add_zero]

theorem of_result_buildWeight_eq_error {failure : GlyphFailure}
    (hbuilt : (session.buildWeight directory corpus weight).result = .error (.glyph failure)) :
    Compilation.font session.settings corpus weight = .error failure ∧
      (session.buildWeight directory corpus weight).session.statistics =
        (session.statistics.gaining (Compilation.run session.settings corpus weight).compiled
          0 []).addFailed failure.label failure.reason := by
  unfold buildWeight at hbuilt ⊢
  cases hfont : Compilation.font session.settings corpus weight with
  | error found =>
    simp only [compile, hfont, Except.mapError, Except.error.injEq, BuildFault.glyph.injEq]
      at hbuilt ⊢
    exact ⟨hbuilt, hbuilt ▸ statistics_afterCompilation_of_error hfont⟩
  | ok font =>
    simp only [compile, hfont, Except.mapError] at hbuilt
    exact absurd hbuilt saveFont_ne_error_glyph

/-! ### Weights in turn -/

/-- Fonts built of some weights add the outlines and substitutions of all of them. -/
theorem of_result_buildWeights_eq_ok {weights : List Weight} {paths : List (Path × Path)}
    (hbuilt : (session.buildWeights directory corpus weights).result = .ok paths) :
    ∃ fonts, Compilation.AreFontsOf session.settings corpus weights fonts ∧
      fonts.length = paths.length ∧
      (session.buildWeights directory corpus weights).session.statistics =
        session.statistics.gaining (Compilation.compiledOf session.settings corpus weights)
          (fonts.map (·.substitutions.length)).sum
          (List.zipWith CompiledFont.output fonts paths) := by
  induction weights generalizing session paths with
  | nil =>
    obtain rfl := Except.ok.inj hbuilt
    exact ⟨[], .nil, rfl, session.statistics.gaining_nil.symm⟩
  | cons weight weights ih =>
    cases hfirst : (session.buildWeight directory corpus weight).result with
    | error fault => simp [buildWeights, hfirst] at hbuilt
    | ok first =>
      simp only [buildWeights, hfirst, Traversal.map_eq_ok_iff] at hbuilt ⊢
      obtain ⟨others, hothers, rfl⟩ := hbuilt
      obtain ⟨font, hfont, hfirstStatistics⟩ := of_result_buildWeight_eq_ok hfirst
      obtain ⟨fonts, hfonts, hlength, hstatistics⟩ := ih hothers
      rw [settings_buildWeight] at hfonts hstatistics
      refine ⟨font :: fonts, .cons hfont hfonts, by simp [hlength], ?_⟩
      rw [hstatistics, hfirstStatistics, BuildStatistics.gaining_gaining]
      rfl

/-- A glyph that fails for one of some weights ends the build there. The fonts of the weights before
it are counted, and the glyphs before it of its own weight. -/
theorem of_result_buildWeights_eq_error {weights : List Weight} {failure : GlyphFailure}
    (hbuilt : (session.buildWeights directory corpus weights).result = .error (.glyph failure)) :
    ∃ done fonts weight rest substitutions outputs, weights = done ++ weight :: rest ∧
      Compilation.AreFontsOf session.settings corpus done fonts ∧
      Compilation.font session.settings corpus weight = .error failure ∧
      (session.buildWeights directory corpus weights).session.statistics =
        (session.statistics.gaining
          (Compilation.compiledOf session.settings corpus (done ++ [weight]))
          substitutions outputs).addFailed failure.label failure.reason := by
  induction weights generalizing session with
  | nil => exact absurd hbuilt nofun
  | cons weight weights ih =>
    cases hfirst : (session.buildWeight directory corpus weight).result with
    | error fault =>
      simp only [buildWeights, hfirst, Except.error.injEq] at hbuilt ⊢
      obtain ⟨hfont, hstatistics⟩ := of_result_buildWeight_eq_error (hfirst.trans (by rw [hbuilt]))
      refine ⟨[], [], weight, weights, 0, [], rfl, .nil, hfont, ?_⟩
      rw [hstatistics, List.nil_append, Compilation.compiledOf, List.flatMap_singleton]
    | ok first =>
      simp only [buildWeights, hfirst, Traversal.map_eq_error_iff] at hbuilt ⊢
      obtain ⟨font, hfont, hfirstStatistics⟩ := of_result_buildWeight_eq_ok hfirst
      obtain ⟨done, fonts, failing, rest, substitutions, outputs, rfl, hdone, hfailing,
        hstatistics⟩ := ih hbuilt
      rw [settings_buildWeight] at hdone hfailing hstatistics
      refine ⟨weight :: done, font :: fonts, failing, rest,
        font.substitutions.length + substitutions, font.output first :: outputs, rfl,
        .cons hfont hdone, hfailing, ?_⟩
      rw [hstatistics, hfirstStatistics, BuildStatistics.gaining_gaining]
      rfl

end Session

/-! ### What statistics tell -/

namespace BuildStatistics

/-- Statistics describe the fonts built from the glyphs of a corpus. -/
structure Describes (stats : BuildStatistics) (settings : Settings) (corpus : List Glyph)
    (fonts : List CompiledFont) : Prop where
  parsed_eq : stats.parsed = corpus.length
  map_weight_outputs : stats.outputs.map (·.weight) = settings.weightsFor corpus
  map_glyphCount_outputs : stats.outputs.map (·.glyphCount) = fonts.map (·.outlines.length)
  compiled_eq : stats.compiled = (fonts.map (·.outlines.length)).sum
  rectangles_eq : stats.rectangles = (fonts.map (·.rectangleCount)).sum
  empty_eq : stats.empty = (fonts.map (·.outlines.countP (·.isEmpty))).sum
  substitutions_eq : stats.substitutions = (fonts.map (·.substitutions.length)).sum
  derived_eq : stats.derived =
    if .bold ∈ settings.weightsFor corpus then
      corpus.countP (Compilation.LacksBold settings corpus ·)
    else 0
  failed_eq : stats.failed = 0
  failures_eq : stats.failures = []

/-- Statistics count some glyphs compiled, with their outlines. -/
structure Covers (stats : BuildStatistics) (entries : List (Glyph × Outline)) : Prop where
  compiled_eq : stats.compiled = entries.length
  derived_eq : stats.derived = entries.countP (·.1.derived)
  empty_eq : stats.empty = entries.countP (·.2.isEmpty)
  rectangles_eq : stats.rectangles = (entries.map (·.2.contours.length)).sum

/-- Where nothing but a number of glyphs read was told before, what is gained is all that is
counted. -/
theorem covers_gaining (number : ℕ) (entries : List (Glyph × Outline)) (substitutions : ℕ)
    (outputs : List WeightOutput) :
    (gaining { parsed := number } entries substitutions outputs).Covers entries := by
  constructor <;> simp [gaining]

/-- Statistics of some glyphs compiled one after the other up to one that fails: they count those
before it, and its failure alone. -/
def StopsAt (stats : BuildStatistics) (settings : Settings) (glyphs : List Glyph)
    (failure : GlyphFailure) : Prop :=
  ∃ (entries : List (Glyph × Outline)) (failed : Glyph) (after : List Glyph),
    glyphs = entries.map Prod.fst ++ failed :: after ∧
      (∀ entry ∈ entries, Compilation.outlineOrReason settings entry.1 = .ok entry.2) ∧
      Compilation.outlineOrReason settings failed = .error failure.reason ∧
      failed.label = failure.label ∧ stats.Covers entries ∧
      stats.failed = 1 ∧ stats.failures = [(failure.label, failure.reason)]

end BuildStatistics

namespace Session

variable {session : Session} {directory : Path}

theorem result_buildCorpus (corpus : List Glyph) :
    (session.buildCorpus directory corpus).result =
      (session.buildWeights directory corpus (session.settings.weightsFor corpus)).result := by
  unfold buildCorpus
  dsimp only
  split <;> simp [*]

theorem statistics_buildCorpus (corpus : List Glyph) :
    (session.buildCorpus directory corpus).session.statistics =
      (session.buildWeights directory corpus
        (session.settings.weightsFor corpus)).session.statistics := by
  unfold buildCorpus
  dsimp only
  split
  · rfl
  · exact statistics_record _ _

/-- The statistics of a session that has done nothing before but read the glyphs describe the fonts
built. -/
theorem describes_of_result_buildCorpus {corpus : List Glyph} {paths : List (Path × Path)}
    (hread : session.statistics = { parsed := corpus.length })
    (hdrawn : ∀ glyph ∈ corpus, glyph.derived = false)
    (hbuilt : (session.buildCorpus directory corpus).result = .ok paths) :
    ∃ fonts, Compilation.AreFontsOf session.settings corpus
        (session.settings.weightsFor corpus) fonts ∧
      (session.buildCorpus directory corpus).session.statistics.Describes session.settings corpus
        fonts := by
  rw [result_buildCorpus] at hbuilt
  obtain ⟨fonts, hfonts, hlength, hstatistics⟩ := of_result_buildWeights_eq_ok hbuilt
  refine ⟨fonts, hfonts, ?_⟩
  rw [statistics_buildCorpus, hstatistics, hread]
  have hglyphs := hfonts.map_fst_compiledOf
  have houtlines := hfonts.map_snd_compiledOf
  have hcovers := BuildStatistics.covers_gaining corpus.length
    (Compilation.compiledOf session.settings corpus (session.settings.weightsFor corpus))
    (fonts.map (·.substitutions.length)).sum (List.zipWith CompiledFont.output fonts paths)
  exact {
    parsed_eq := rfl
    map_weight_outputs :=
      (CompiledFont.map_zipWith_output (fun _ _ ↦ rfl) hlength).trans hfonts.map_weight
    map_glyphCount_outputs := CompiledFont.map_zipWith_output (fun _ _ ↦ rfl) hlength
    compiled_eq := by
      rw [hcovers.compiled_eq, ← List.length_map Prod.snd, houtlines, List.length_flatMap]
    rectangles_eq := by
      rw [hcovers.rectangles_eq, CompiledFont.sum_rectangleCount, ← houtlines, List.map_map]
      rfl
    empty_eq := by
      have hempty := congrArg (List.countP (·.isEmpty)) houtlines
      rw [List.countP_map, List.countP_flatMap] at hempty
      exact hcovers.empty_eq.trans hempty
    substitutions_eq := Nat.zero_add _
    derived_eq := by
      rw [hcovers.derived_eq, ← Compilation.countP_derived_weightsFor hdrawn, ← hglyphs,
        List.countP_map]
      rfl
    failed_eq := rfl
    failures_eq := rfl }

/-- The statistics of a session that has compiled nothing before stop at the glyph that fails, the
fonts of the weights before being compiled. -/
theorem stopsAt_addFailed {settings : Settings} {corpus : List Glyph} {done : List Weight}
    {fonts : List CompiledFont} {weight : Weight} {failure : GlyphFailure}
    (hdone : Compilation.AreFontsOf settings corpus done fonts)
    (hfailing : Compilation.font settings corpus weight = .error failure) (number : ℕ)
    (rest : List Weight) (substitutions : ℕ) (outputs : List WeightOutput) :
    ((BuildStatistics.gaining { parsed := number }
      (Compilation.compiledOf settings corpus (done ++ [weight])) substitutions
      outputs).addFailed failure.label failure.reason).StopsAt settings
        ((done ++ weight :: rest).flatMap (Compilation.selected settings corpus)) failure := by
  obtain ⟨failed, after, hreason, hlabel, hglyphs⟩ :=
    hdone.exists_append_compiledOf hfailing rest
  obtain ⟨hcompiled, hderived, hempty, hrectangles⟩ := BuildStatistics.covers_gaining number
    (Compilation.compiledOf settings corpus (done ++ [weight])) substitutions outputs
  exact ⟨_, failed, after, hglyphs, fun _ ↦ Compilation.outlineOrReason_of_mem_compiledOf,
    hreason, hlabel, ⟨hcompiled, hderived, hempty, hrectangles⟩, rfl, rfl⟩

theorem stopsAt_of_result_buildCorpus {number : ℕ} {corpus : List Glyph} {failure : GlyphFailure}
    (hread : session.statistics = { parsed := number })
    (hbuilt : (session.buildCorpus directory corpus).result = .error (.glyph failure)) :
    (session.buildCorpus directory corpus).session.statistics.StopsAt session.settings
      ((session.settings.weightsFor corpus).flatMap
        (Compilation.selected session.settings corpus)) failure := by
  rw [result_buildCorpus] at hbuilt
  obtain ⟨done, fonts, weight, rest, substitutions, outputs, hweights, hdone, hfailing,
    hstatistics⟩ := of_result_buildWeights_eq_error hbuilt
  rw [statistics_buildCorpus, hstatistics, hread, hweights]
  exact stopsAt_addFailed hdone hfailing number rest substitutions outputs

theorem stopsAt_of_result_compile {corpus : List Glyph} {weight : Weight} {failure : GlyphFailure}
    (hfresh : session.statistics = {})
    (hcompiled : (session.compile corpus weight).result = .error (.glyph failure)) :
    (session.compile corpus weight).session.statistics.StopsAt session.settings
      (Compilation.selected session.settings corpus weight) failure := by
  have hfailing : Compilation.font session.settings corpus weight = .error failure := by
    unfold compile at hcompiled
    cases hfont : Compilation.font session.settings corpus weight with
    | error found =>
      rw [hfont] at hcompiled
      exact congrArg Except.error (BuildFault.glyph.inj (Except.error.inj hcompiled))
    | ok compiled => exact absurd (hfont ▸ hcompiled) nofun
  have hstops := stopsAt_addFailed .nil hfailing 0 [] 0 []
  rw [← hfresh, Compilation.compiledOf, List.nil_append, List.flatMap_singleton,
    ← statistics_afterCompilation_of_error hfailing, List.flatMap_singleton] at hstops
  exact hstops

/-! ### Builds -/

/-- A build that gets past the gate builds the fonts of the corpus read, having noted how many
glyphs that has. -/
theorem exists_buildCorpus (session : Session) (directory : Path) (sources : Option (List Path)) :
    (∃ fault, (session.build directory sources).result = .error (.file fault)) ∨
      (∃ report, (session.build directory sources).result = .error (.refused report)) ∨
      ∃ (corpus : Corpus) (validated : Session),
        Corpus.read session.tree (sources.getD session.settings.glyphDirectories) = .ok corpus ∧
        validated.settings = session.settings ∧
        validated.statistics = { session.statistics with parsed := corpus.glyphs.length } ∧
        session.build directory sources = validated.buildCorpus directory corpus.glyphs := by
  have hresult := result_load session sources
  cases hread : Corpus.read session.tree (sources.getD session.settings.glyphDirectories) with
  | error fault =>
    rw [hread] at hresult
    exact .inl ⟨fault, by simp only [build, hresult]; rfl⟩
  | ok corpus =>
    rw [hread] at hresult
    simp only [build, hresult, Except.mapError]
    split
    · exact .inr (.inr ⟨corpus, _, rfl, by simp [validate], by simp [validate], rfl⟩)
    · exact .inr (.inl ⟨_, rfl⟩)

theorem derived_of_mem_read {tree : FileTree} {directories : List Path} {corpus : Corpus}
    (hread : Corpus.read tree directories = .ok corpus) :
    ∀ glyph ∈ corpus.glyphs, glyph.derived = false := by
  intro glyph hglyph
  unfold Corpus.read at hread
  split at hread
  · exact absurd hread nofun
  · obtain rfl := Except.ok.inj hread
    obtain ⟨path, -, hfile⟩ := Corpus.mem_glyphs_ofReadings_iff.mp hglyph
    obtain ⟨_, _, _, _, hparse⟩ := GlyphFile.read_eq_ok_iff.mp hfile
    exact (GlyphFile.drawn_of_parse hparse).1

/-- After a build that succeeds, the statistics of a session that was fresh describe the fonts of
the corpus read. Where a glyph fails, they count the glyphs before it, and the failure alone: in a
build, in a font compiled alone, and in the fonts of a corpus built in turn without the gate. -/
theorem statistics_build {session : Session} (hfresh : session.statistics = {})
    (directory : Path) (sources : Option (List Path)) :
    (∀ paths, (session.build directory sources).result = .ok paths →
      ∃ corpus fonts,
        Corpus.read session.tree (sources.getD session.settings.glyphDirectories) = .ok corpus ∧
        Compilation.AreFontsOf session.settings corpus.glyphs
          (session.settings.weightsFor corpus.glyphs) fonts ∧
        (session.build directory sources).session.statistics.Describes session.settings
          corpus.glyphs fonts) ∧
      (∀ failure, (session.build directory sources).result = .error (.glyph failure) →
        ∃ corpus,
          Corpus.read session.tree (sources.getD session.settings.glyphDirectories) = .ok corpus ∧
          (session.build directory sources).session.statistics.StopsAt session.settings
            ((session.settings.weightsFor corpus.glyphs).flatMap
              (Compilation.selected session.settings corpus.glyphs)) failure) ∧
      ∀ (corpus : List Glyph) (failure : GlyphFailure),
        (∀ weight, (session.compile corpus weight).result = .error (.glyph failure) →
          (session.compile corpus weight).session.statistics.StopsAt session.settings
            (Compilation.selected session.settings corpus weight) failure) ∧
        ((session.buildCorpus directory corpus).result = .error (.glyph failure) →
          (session.buildCorpus directory corpus).session.statistics.StopsAt session.settings
            ((session.settings.weightsFor corpus).flatMap
              (Compilation.selected session.settings corpus)) failure) := by
  obtain ⟨fault, hfault⟩ | ⟨report, hrefused⟩ | ⟨corpus, validated, hread, hsettings, hnoted,
    hbuild⟩ := exists_buildCorpus session directory sources
  all_goals
    refine ⟨fun paths hbuilt ↦ ?_, fun failure hbuilt ↦ ?_, fun corpus failure ↦
      ⟨fun weight ↦ stopsAt_of_result_compile hfresh, stopsAt_of_result_buildCorpus hfresh⟩⟩
  · exact absurd (hfault.symm.trans hbuilt) nofun
  · exact absurd (hfault.symm.trans hbuilt) nofun
  · exact absurd (hrefused.symm.trans hbuilt) nofun
  · exact absurd (hrefused.symm.trans hbuilt) nofun
  · rw [hbuild] at hbuilt ⊢
    rw [hfresh] at hnoted
    obtain ⟨fonts, hfonts, hdescribes⟩ :=
      describes_of_result_buildCorpus hnoted (derived_of_mem_read hread) hbuilt
    rw [hsettings] at hfonts hdescribes
    exact ⟨corpus, fonts, hread, hfonts, hdescribes⟩
  · rw [hbuild] at hbuilt ⊢
    rw [hfresh] at hnoted
    have hstops := stopsAt_of_result_buildCorpus hnoted hbuilt
    rw [hsettings] at hstops
    exact ⟨corpus, hread, hstops⟩

/-- The one letter of a directory is drawn for a regular font and derived for a bold one. Of a blank
glyph and a ragged one, only the blank one is counted. -/
theorem statistics_build_letter :
    let letter := Text.Utf8.encode "# A (U+0041)\n\nX\n".toList
    let tree := (FileTree.empty []).add ["g", "A.glyph"] (.file (.bytes letter))
    let session : Session := { settings := Settings.oneCell, tree }
    let sources := some [Path.ofString "g"]
    let blank : Glyph := { label := "B", codepoint := some 66, grid := [[false]] }
    let ragged : Glyph := { label := "C", codepoint := some 67, grid := [[true], []] }
    let failure : GlyphFailure := ⟨"C", (RasterError.raggedRow 1 0 1).message⟩
    session.statistics = {} ∧
      (∃ corpus fonts,
        Compilation.AreFontsOf session.settings corpus
          (session.settings.weightsFor corpus) fonts ∧
        (session.build Path.here sources).session.statistics.Describes session.settings corpus
          fonts) ∧
      (session.compile [blank, ragged] .regular).session.statistics.StopsAt session.settings
        [blank, ragged] failure := by
  intro letter tree session sources blank ragged failure
  have hfresh : session.statistics = {} := rfl
  have hbuilt : (session.build Path.here sources).result.isOk = true := by decide +kernel
  have hfailed : (session.compile [blank, ragged] .regular).result = .error (.glyph failure) := by
    decide +kernel
  obtain ⟨hdescribes, -, hstops⟩ := statistics_build hfresh Path.here sources
  refine ⟨hfresh, ?_, (hstops [blank, ragged] failure).1 .regular hfailed⟩
  cases hresult : (session.build Path.here sources).result with
  | error fault =>
    rw [hresult] at hbuilt
    contradiction
  | ok paths =>
    obtain ⟨corpus, fonts, -, hfonts, hdescribed⟩ := hdescribes paths hresult
    exact ⟨corpus.glyphs, fonts, hfonts, hdescribed⟩

end Session

end PixelFont
