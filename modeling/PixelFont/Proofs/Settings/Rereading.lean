import PixelFont.Build.Compilation
import PixelFont.Proofs.Settings.Record

/-!
Settings read once more. A reading turns what it is given into values within the bounds of their
fields, numerals and flags into numbers and truth values, texts into paths in normal form, and what
is not given into defaults; of all this nothing is left for a second reading to do, so that the
value which accepted settings give is read as the same settings. What can be read is therefore just
what keeps the bounds (`Settings.exists_ofValue_iff`), and a worker that is handed this value works
under the settings of the program itself (`Compilation.record_congr`). Main statement:
`Settings.ofValue_reread`.
-/

set_option autoImplicit false

namespace PixelFont

namespace Compilation

/-- Values that are read alike mean the same to a worker. -/
theorem record_congr {value other : Value} (hsame : Settings.ofValue value = Settings.ofValue other)
    (glyph : Value) : record value glyph = record other glyph := by
  simp only [record, hsame]

end Compilation

theorem Metrics.ascender_nonneg (metrics : Metrics) : 0 ≤ metrics.ascender :=
  Int.mul_nonneg (Int.natCast_nonneg _) (Int.natCast_nonneg _)

theorem Metrics.descender_nonpos (metrics : Metrics) : metrics.descender ≤ 0 :=
  Int.neg_nonpos_of_nonneg (Int.mul_nonneg (Int.natCast_nonneg _) (Int.natCast_nonneg _))

namespace Settings

variable {value : Value} {settings : Settings}

namespace IsAccepted

theorem unitsPerEm_pos (haccepted : settings.IsAccepted) : 0 < settings.unitsPerEm :=
  Int.mul_pos (Int.natCast_pos.mpr haccepted.pixelSize_pos)
    (Int.natCast_pos.mpr haccepted.height_pos)

theorem advance_pos (haccepted : settings.IsAccepted) : 0 < settings.advance :=
  Int.mul_pos (Int.natCast_pos.mpr haccepted.pixelSize_pos)
    (Int.natCast_pos.mpr haccepted.width_pos)

theorem requiredStart_le (haccepted : settings.IsAccepted) :
    settings.corpus.requiredStart ≤ maxCodepoint :=
  Nat.le_trans haccepted.required_le haccepted.requiredEnd_le

end IsAccepted

/-- Some value is read as given settings exactly if these keep their bounds and the version has its
form. -/
theorem exists_ofValue_iff :
    (∃ value, ofValue value = .value settings) ↔
      settings.IsAccepted ∧ Value.isVersion settings.naming.version.toList = true := by
  constructor
  · rintro ⟨value, hread⟩
    exact ⟨isAccepted_of_ofValue hread, isVersion_of_ofValue hread⟩
  · rintro ⟨haccepted, hversion⟩
    exact ⟨settings.toValue, ofValue_toValue_of_isAccepted haccepted hversion⟩

/-- Whatever value settings are read from, the value that they give is read as the same settings and
gives itself once more, and a worker makes the same of any record of a glyph under either value. The
settings keep the bounds of all fields, the baseline lies in the raster or at its lower edge, the
required codepoints are in order, the em square and the advance are positive, and the descender and
the ascender lie on their sides of the baseline. -/
theorem ofValue_reread (hread : ofValue value = .value settings) :
    ofValue settings.toValue = .value settings ∧
      toValue <$> ofValue settings.toValue = .value settings.toValue ∧
      (∀ glyph : Value,
        Compilation.record settings.toValue glyph = Compilation.record value glyph) ∧
      (settings.IsAccepted ∧ settings.corpus.requiredStart ≤ maxCodepoint ∧
        Value.isVersion settings.naming.version.toList = true) ∧
      (0 < settings.unitsPerEm ∧ 0 < settings.advance) ∧
      settings.metrics.descender ≤ 0 ∧ 0 ≤ settings.metrics.ascender := by
  have haccepted := isAccepted_of_ofValue hread
  have hversion := isVersion_of_ofValue hread
  have hagain := ofValue_toValue_of_isAccepted haccepted hversion
  refine ⟨hagain, ?_, Compilation.record_congr (hagain.trans hread.symm),
    ⟨haccepted, haccepted.requiredStart_le, hversion⟩,
    ⟨haccepted.unitsPerEm_pos, haccepted.advance_pos⟩, settings.metrics.descender_nonpos,
    settings.metrics.ascender_nonneg⟩
  rw [hagain]
  rfl

/-- A numeral in text, flags and numbers in each other's place, a path with superfluous parts, a key
in both spellings and no number of workers: the settings read of these are read again as they
are. -/
theorem ofValue_reread_coerced :
    let value : Value := .record [
      ("grid", .record [
        ("height", .text " +2_0 "), ("baselineRow", .bool true), ("baseline_row", .int 99)]),
      ("corpus", .record [
        ("glyphDirs", .list [.text "a//b/."]), ("ligatures", .int 0),
        ("required_end", .real (.ofInt 90))]),
      ("processing", .record [("maxWorkers", .null)]),
      ("projectRoot", .text "x/./y/")]
    let settings : Settings :=
      { raster := { height := 20, baselineRow := 1 }
        corpus :=
          { directories := [Path.ofString "a/b"], requiredEnd := 90, ligatures := false }
        processing := ⟨none⟩
        projectRoot := Path.ofString "x/y" }
    ofValue value = .value settings ∧ ofValue settings.toValue = .value settings ∧
      settings.raster.baselineRow ≤ settings.raster.height ∧ 0 < settings.unitsPerEm := by
  intro value settings
  have hread : ofValue value = .value settings := rfl
  obtain ⟨hagain, -, -, ⟨haccepted, -⟩, ⟨hem, -⟩, -⟩ := ofValue_reread hread
  exact ⟨hread, hagain, haccepted.baseline_le, hem⟩

end Settings

end PixelFont
