import PixelFont.Proofs.Build.Outlines
import PixelFont.Proofs.Settings.Acceptance

/-!
Handing glyphs over to workers changes nothing. The records of a glyph and of settings that were
read are both read again as what they were written from, so that a worker refuses a glyph exactly if
its rows differ in length, and otherwise hands back the outline that the program itself would have
drawn (`record_toValue`). The step from one glyph to a run is `compileAll_congr`: runs that agree
glyph by glyph agree up to the first failure, so neither outlines nor failures depend on how many
workers there are. Main statement: `Compilation.handover_unchanged`.
-/

set_option autoImplicit false

namespace PixelFont

namespace Grid

/-- Two rows of a grid that is not rectangular differ in length. -/
theorem isRectangular_eq_false_iff {grid : Grid} :
    grid.isRectangular = false ↔
      ∃ first ∈ grid, ∃ second ∈ grid, first.length ≠ second.length := by
  rw [← Bool.not_eq_true, isRectangular_iff]
  cases grid with
  | nil => simp
  | cons top rows =>
    constructor
    · intro hragged
      push Not at hragged
      obtain ⟨cells, hcells, hlength⟩ := hragged
      exact ⟨cells, hcells, top, List.mem_cons_self, hlength⟩
    · rintro ⟨first, hfirst, second, hsecond, hne⟩ hequal
      exact hne ((hequal first hfirst).trans (hequal second hsecond).symm)

end Grid

/-- The settings with the work done by a number of workers, chosen by the machine where none is
given. -/
def Settings.withWorkers (settings : Settings) (workers : Option ℕ) : Settings :=
  { settings with processing := ⟨workers⟩ }

theorem Settings.IsAccepted.withWorkers {settings : Settings} (haccepted : settings.IsAccepted)
    {workers : Option ℕ} (hworkers : ∀ count ∈ workers, 0 < count) :
    (settings.withWorkers workers).IsAccepted :=
  { haccepted with workers_pos := hworkers }

namespace Compilation

variable {value : Value} {settings : Settings}

/-! ### One glyph -/

/-- What a worker makes of a record of a glyph: only the cover of its raster can fail. -/
theorem record_toValue (hread : Settings.ofValue value = .value settings) (glyph : Glyph) :
    record settings.toValue glyph.toValue =
      match glyph.grid.compact with
      | .error error => .error (.raster error)
      | .ok rectangles =>
        .ok ⟨(glyph.outline rectangles settings.scale settings.raster.width).toValue,
          rectangles.length⟩ := by
  cases hcompact : glyph.grid.compact with
  | error error =>
    simp only [record, Glyph.ofValue_toValue, Settings.ofValue_toValue hread, hcompact]
  | ok rectangles =>
    simp only [record, Glyph.ofValue_toValue, Settings.ofValue_toValue hread, hcompact]

theorem record_eq_error_iff (hread : Settings.ofValue value = .value settings) {glyph : Glyph} :
    (∃ fault, record settings.toValue glyph.toValue = .error fault) ↔
      ∃ first ∈ glyph.grid, ∃ second ∈ glyph.grid, first.length ≠ second.length := by
  rw [record_toValue hread, ← Grid.isRectangular_eq_false_iff]
  cases hgrid : glyph.grid.isRectangular with
  | true => simp [Grid.compact_eq_ok hgrid]
  | false =>
    obtain ⟨_, _, _, hcompact⟩ := Grid.compact_eq_error hgrid
    simp [hcompact]

/-- What a worker hands back of a glyph reads as its outline, with the number of its contours. -/
theorem of_record_eq_ok (hread : Settings.ofValue value = .value settings) {glyph : Glyph}
    {compiled : CompiledRecord}
    (hrecord : record settings.toValue glyph.toValue = .ok compiled) :
    ∃ rectangles, glyph.grid.compact = .ok rectangles ∧
      Outline.ofValue? compiled.outline =
        some (glyph.outline rectangles settings.scale settings.raster.width) ∧
      compiled.rectangles =
        (glyph.outline rectangles settings.scale settings.raster.width).contours.length := by
  rw [record_toValue hread] at hrecord
  cases hcompact : glyph.grid.compact with
  | error error => simp [hcompact] at hrecord
  | ok rectangles =>
    rw [hcompact] at hrecord
    obtain rfl := Except.ok.inj hrecord
    refine ⟨rectangles, rfl, Outline.ofValue?_toValue _, ?_⟩
    rw [Glyph.outline, Rectangle.contours, List.length_map]

/-! ### Runs -/

/-- Runs that agree on every glyph have the same outlines and the same first failure. -/
theorem compileAll_congr {first second : Glyph → Except String Outline} {glyphs : List Glyph}
    (hagree : ∀ glyph ∈ glyphs, first glyph = second glyph) :
    compileAll first glyphs = compileAll second glyphs := by
  induction glyphs with
  | nil => rfl
  | cons glyph glyphs ih =>
    rw [List.forall_mem_cons] at hagree
    rw [compileAll, compileAll, hagree.1, ih hagree.2]

/-- By how many workers a glyph is compiled makes no difference to its outline or the reason why
it has none. -/
theorem outlineOrReason_withWorkers (hread : Settings.ofValue value = .value settings)
    {workers : Option ℕ} (hworkers : ∀ count ∈ workers, 0 < count) (glyph : Glyph) :
    outlineOrReason (settings.withWorkers workers) glyph = outlineOrReason settings glyph := by
  have hversion := Settings.isVersion_of_ofValue hread
  have haccepted := (Settings.isAccepted_of_ofValue hread).withWorkers hworkers
  have hchanged := Settings.ofValue_toValue_of_isAccepted haccepted hversion
  rw [outlineOrReason_eq hchanged, outlineOrReason_eq hread]
  rfl

theorem compileAll_withWorkers (hread : Settings.ofValue value = .value settings)
    {workers : Option ℕ} (hworkers : ∀ count ∈ workers, 0 < count) (glyphs : List Glyph) :
    compileAll (outlineOrReason (settings.withWorkers workers)) glyphs =
      compileAll (outlineOrReason settings) glyphs :=
  compileAll_congr fun glyph _ ↦ outlineOrReason_withWorkers hread hworkers glyph

/-- The font of a weight, or the first glyph that fails with the reason, is the same by however
many workers. -/
theorem font_withWorkers (hread : Settings.ofValue value = .value settings)
    {workers : Option ℕ} (hworkers : ∀ count ∈ workers, 0 < count) (corpus : List Glyph)
    (weight : Weight) :
    font (settings.withWorkers workers) corpus weight = font settings corpus weight := by
  have hselected : selected (settings.withWorkers workers) corpus weight =
      selected settings corpus weight := rfl
  have hrun : run (settings.withWorkers workers) corpus weight = run settings corpus weight := by
    rw [run, hselected, compileAll_withWorkers hread hworkers]
    rfl
  rw [font, hrun]
  rfl

/-! ### The boundary -/

/-- Under settings that were read, a worker that is handed the records of the settings and of a
glyph refuses it exactly if two rows of its raster differ in length. Otherwise what it hands back
reads as the outline drawn of the cover of the raster, together with the number of its contours.
Hence any glyphs, and the glyphs of a weight of any corpus, compile to the same outlines, or fail
with the same first glyph for the same reason, by any number of workers as in the program itself. -/
theorem handover_unchanged (hread : Settings.ofValue value = .value settings) :
    (∀ glyph : Glyph, (∃ fault, record settings.toValue glyph.toValue = .error fault) ↔
        ∃ first ∈ glyph.grid, ∃ second ∈ glyph.grid, first.length ≠ second.length) ∧
      (∀ (glyph : Glyph) (compiled : CompiledRecord),
        record settings.toValue glyph.toValue = .ok compiled →
          ∃ rectangles, glyph.grid.compact = .ok rectangles ∧
            Outline.ofValue? compiled.outline =
              some (glyph.outline rectangles settings.scale settings.raster.width) ∧
            compiled.rectangles =
              (glyph.outline rectangles settings.scale settings.raster.width).contours.length) ∧
      ∀ workers : Option ℕ, (∀ count ∈ workers, 0 < count) →
        (∀ glyphs : List Glyph,
          compileAll (outlineOrReason (settings.withWorkers workers)) glyphs =
            compileAll (outlineOrReason (settings.withWorkers (some 1))) glyphs) ∧
        ∀ (corpus : List Glyph) (weight : Weight),
          font (settings.withWorkers workers) corpus weight =
            font (settings.withWorkers (some 1)) corpus weight := by
  have halone : ∀ count ∈ some 1, 0 < count := by simp
  refine ⟨fun _ ↦ record_eq_error_iff hread, fun _ _ ↦ of_record_eq_ok hread,
    fun workers hworkers ↦ ⟨fun glyphs ↦ ?_, fun corpus weight ↦ ?_⟩⟩
  · exact (compileAll_withWorkers hread hworkers glyphs).trans
      (compileAll_withWorkers hread halone glyphs).symm
  · exact (font_withWorkers hread hworkers corpus weight).trans
      (font_withWorkers hread halone corpus weight).symm

/-- A glyph of one filled cell comes back as its outline, one whose second row is short is refused,
and a corpus of both fails with the second by two workers as by one. -/
theorem handover_unchanged_oneCell :
    let settings := Settings.oneCell
    let letter : Glyph :=
      { label := "A", codepoint := some 65, grid := [[true]], components := some ["x", "y"],
        source := some (Path.ofString "A.glyph") }
    let ragged : Glyph := { label := "B", codepoint := some 66, grid := [[true], []] }
    Settings.ofValue Settings.oneCellRecord = .value settings ∧
      (∃ fault, record settings.toValue ragged.toValue = .error fault) ∧
      (∃ compiled rectangles, record settings.toValue letter.toValue = .ok compiled ∧
        Outline.ofValue? compiled.outline = some (letter.outline rectangles settings.scale 1) ∧
        compiled.rectangles = (letter.outline rectangles settings.scale 1).contours.length) ∧
      font (settings.withWorkers (some 2)) [letter, ragged] .regular =
        font (settings.withWorkers (some 1)) [letter, ragged] .regular := by
  intro settings letter ragged
  have hread : Settings.ofValue Settings.oneCellRecord = .value settings := rfl
  obtain ⟨hrefused, hcompiled, hworkers⟩ := handover_unchanged hread
  have hrecord := record_toValue hread letter
  rw [Grid.compact_eq_ok rfl] at hrecord
  obtain ⟨rectangles, -, houtline, hcount⟩ := hcompiled letter _ hrecord
  exact ⟨hread, (hrefused ragged).mpr ⟨[true], by simp [ragged], [], by simp [ragged], by simp⟩,
    ⟨_, rectangles, hrecord, houtline, hcount⟩, (hworkers (some 2) (by simp)).2 _ _⟩

end Compilation

end PixelFont
