import PixelFont.Proofs.Gate.CharacterSet

/-!
When the gate can be passed at all. Every corpus must draw the required codepoints, and no glyph may
stand for half of a surrogate pair, so that no corpus passes if the required range meets that of the
surrogates. Otherwise blank glyphs of all required codepoints do. Main statement:
`Gate.exists_isValid_report_iff`.
-/

set_option autoImplicit false

namespace PixelFont

namespace Gate

/-! ### Blank characters -/

/-- The blank pattern of a codepoint, labelled by its numeral. -/
def blankPattern (codepoint : ℕ) : Pattern :=
  ⟨codepoint, Text.Hexadecimal.padded 4 codepoint, fun _ _ ↦ false⟩

/-- The blank glyphs of the codepoints that a corpus must hold. -/
def blankGlyphs (settings : Settings) : List Glyph :=
  ((List.range' settings.corpus.requiredStart
      (settings.corpus.requiredEnd + 1 - settings.corpus.requiredStart)).map blankPattern).map
    (Pattern.glyph settings.raster.width settings.raster.height)

variable {settings : Settings}

/-- Blank glyphs of a range without surrogates are a set of characters. -/
theorem isCharacterSet_blankGlyphs (haccepted : settings.IsAccepted)
    (hapart : settings.corpus.requiredEnd < 0xD800 ∨ 0xDFFF < settings.corpus.requiredStart) :
    IsCharacterSet settings.raster (blankGlyphs settings) := by
  have hend : settings.corpus.requiredEnd ≤ 0x10FFFF := haccepted.requiredEnd_le
  have hdistinct : (List.range' settings.corpus.requiredStart
      (settings.corpus.requiredEnd + 1 - settings.corpus.requiredStart)).Nodup :=
    List.nodup_range'
  refine isCharacterSet_map_glyph haccepted.width_pos ?_ ?_ ?_
  · refine List.forall_mem_map.mpr fun codepoint hcodepoint ↦ ?_
    rw [List.mem_range'_1] at hcodepoint
    simp only [IsScalar, blankPattern]
    omega
  · rw [List.map_map]
    exact hdistinct.map fun _ _ ↦ Int.ofNat.inj
  · rw [List.map_map]
    exact hdistinct.map fun _ _ ↦ Text.Hexadecimal.padded_injective

/-- No required codepoint is missing from the blank glyphs. -/
theorem missingCodepoints_blankGlyphs (settings : Settings) :
    missingCodepoints settings.corpus (blankGlyphs settings) = [] := by
  rw [missingCodepoints_eq_nil_iff]
  intro codepoint hstart hend
  refine ⟨(blankPattern codepoint).glyph settings.raster.width settings.raster.height, ?_,
    rfl, rfl⟩
  refine List.mem_map_of_mem (List.mem_map_of_mem ?_)
  rw [List.mem_range'_1]
  omega

/-! ### Passing the gate -/

/-- A corpus that passes the gate draws no surrogate, so none is required. -/
theorem IsPublishable.required_apart {corpus : Corpus} (haccepted : settings.IsAccepted)
    (hpublishable : IsPublishable settings corpus) :
    settings.corpus.requiredEnd < 0xD800 ∨ 0xDFFF < settings.corpus.requiredStart := by
  have hrange := haccepted.required_le
  by_contra hmeets
  -- The first surrogate of the required range is drawn by no glyph.
  obtain ⟨glyph, hglyph, hencoding, -⟩ := hpublishable.required
    (max settings.corpus.requiredStart 0xD800) (by omega) (by omega)
  have hscalar := (hpublishable.drawn glyph hglyph).scalar _ (encoding?_eq_some_iff.mp hencoding).2
  simp only [IsScalar] at hscalar
  omega

/-- Under settings that were read, some corpus without rejected files passes the gate exactly if no
required codepoint is that of a surrogate. -/
theorem exists_isValid_report_iff {value : Value} (hread : Settings.ofValue value = .value settings)
    (view : Viewpoint) :
    (∃ glyphs, (report settings view { glyphs }).isValid = true) ↔
      settings.corpus.requiredEnd < 0xD800 ∨ 0xDFFF < settings.corpus.requiredStart := by
  have haccepted := Settings.isAccepted_of_ofValue hread
  constructor
  · rintro ⟨glyphs, hvalid⟩
    exact (isPublishable_of_isValid hread hvalid).required_apart haccepted
  · intro hapart
    have hfindings := (isCharacterSet_blankGlyphs haccepted hapart).findings_eq rfl
      haccepted.width_pos haccepted.height_pos view
    refine ⟨blankGlyphs settings, isValid_report_iff_forall.mpr ?_⟩
    rw [hfindings, missingCodepoints_blankGlyphs]
    exact List.forall_mem_nil _

/-- A corpus passes the gate that asks for all characters before the surrogates. -/
theorem exists_isValid_report_iff_plane :
    let value : Value := .record [
      ("corpus", .record [("required_start", .int 0), ("required_end", .int 0xD7FF)])]
    let settings : Settings := { corpus := { requiredStart := 0, requiredEnd := 0xD7FF } }
    Settings.ofValue value = .value settings ∧
      ∃ glyphs, (report settings ⟨[], Path.here⟩ { glyphs }).isValid = true := by
  intro value settings
  have hread : Settings.ofValue value = .value settings := rfl
  exact ⟨hread, (exists_isValid_report_iff hread ⟨[], Path.here⟩).mpr (Or.inl (by decide))⟩

/-- Settings are accepted that require a surrogate, and then no corpus passes. -/
theorem not_isValid_report_surrogate :
    let value : Value := .record [
      ("corpus", .record [("required_start", .int 0xD800), ("required_end", .int 0xD800)])]
    let settings : Settings := { corpus := { requiredStart := 0xD800, requiredEnd := 0xD800 } }
    Settings.ofValue value = .value settings ∧
      ∀ view glyphs, (report settings view { glyphs }).isValid = false := by
  intro value settings
  have hread : Settings.ofValue value = .value settings := rfl
  refine ⟨hread, fun view glyphs ↦ Bool.eq_false_iff.mpr fun hvalid ↦ ?_⟩
  have hapart := (isPublishable_of_isValid hread hvalid).required_apart
    (Settings.isAccepted_of_ofValue hread)
  exact absurd hapart (by decide)

end Gate

end PixelFont
