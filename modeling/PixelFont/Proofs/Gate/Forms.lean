import PixelFont.Build.Session
import PixelFont.Proofs.Gate.Soundness

/-!
The glyphs that a font takes of a corpus that passes the gate. The gate looks at the glyphs of the
corpus, and the bold font takes widened forms of some of them; a form is drawn as it should be if
its glyph is. Behind the gate, then, whatever holds of glyphs that are drawn as they should be holds
of those that are compiled. A name that stands for a codepoint is borne by one of them alone.
-/

set_option autoImplicit false

namespace PixelFont

namespace Gate

variable {raster : RasterSize} {glyph : Glyph}

/-! ### Codepoints -/

/-- The identity of a glyph tells its codepoint. -/
theorem encoding?_eq_some_iff_identity {codepoint : Int} :
    glyph.encoding? = some codepoint ↔ glyph.identity = .codepoint codepoint := by
  refine ⟨identity_of_encoding?, fun hidentity ↦ ?_⟩
  unfold Glyph.identity at hidentity
  split at hidentity
  · rename_i hkind hcodepoint
    rw [encoding?_eq_some_iff, hkind, hcodepoint, Identity.codepoint.inj hidentity]
    exact ⟨rfl, rfl⟩
  · exact absurd hidentity (by simp)

/-! ### Shapes -/

/-- The rows of a glyph that is drawn as it should be are not empty. -/
theorem IsDrawn.cellsAcross_pos (hwidth : 0 < raster.width) (hdrawn : IsDrawn raster glyph) :
    0 < cellsAcross raster glyph := by
  rw [cellsAcross]
  split
  · rename_i hkind
    exact Nat.mul_pos hwidth (List.length_pos_iff.mpr (hdrawn.composed hkind))
  · exact hwidth

/-- The text of a row that is not empty is a raster line. -/
theorem isRasterLine_rowText {row : List Bool} (hrow : 0 < row.length) :
    isRasterLine (Grid.rowText row) = true := by
  rw [isRasterLine_iff, Grid.rowText, String.toList_ofList, List.forall_mem_map]
  constructor
  · intro htext
    have hnil := congrArg String.toList htext
    rw [String.toList_ofList] at hnil
    exact List.ne_nil_of_length_pos hrow (List.map_eq_nil_iff.mp hnil)
  · rintro (_ | _) -
    · exact Or.inl rfl
    · exact Or.inr rfl

/-- The bold form of a glyph that is drawn as it should be is so as well. -/
theorem IsDrawn.deriveBold (hwidth : 0 < raster.width) (hdrawn : IsDrawn raster glyph) :
    IsDrawn raster glyph.deriveBold := by
  have hrows : ∀ row ∈ glyph.grid.widen, row.length = cellsAcross raster glyph := by
    refine List.forall_mem_map.mpr fun row hrow ↦ ?_
    rw [Grid.length_widenRow, hdrawn.width row hrow]
  exact {
    height := (List.length_map _).trans hdrawn.height
    width := hrows
    lines := List.forall_mem_map.mpr fun row hrow ↦ isRasterLine_iff.mp
      (isRasterLine_rowText ((hrows row hrow).symm ▸ hdrawn.cellsAcross_pos hwidth))
    encoded := hdrawn.encoded
    composed := hdrawn.composed
    scalar := hdrawn.scalar }

/-! ### Glyphs compiled -/

section Compiled

variable {settings : Settings} {corpus : Corpus} (hpublishable : IsPublishable settings corpus)
  (weight : Weight)
include hpublishable

/-- Every glyph compiled of a publishable corpus is drawn as it should be. -/
theorem IsPublishable.isDrawn_selected (hwidth : 0 < settings.raster.width) :
    ∀ form ∈ Compilation.selected settings corpus.glyphs weight, IsDrawn settings.raster form := by
  intro form hform
  rw [selected_eq] at hform
  obtain ⟨glyph, hglyph, hform⟩ := List.mem_filterMap.mp hform
  have hdrawn := hpublishable.drawn glyph hglyph
  rcases Weight.eq_or_eq_of_form? hform with rfl | rfl
  · exact hdrawn
  · exact hdrawn.deriveBold hwidth

theorem IsPublishable.nodup_identities_selected :
    ((Compilation.selected settings corpus.glyphs weight).map Glyph.identity).Nodup :=
  List.pairwise_map.mpr (hpublishable.pairwise_identity_selected weight)

/-- The name of a glyph with a codepoint is borne by no other glyph compiled: no label spells a
codepoint, and no two glyphs have one. -/
theorem IsPublishable.eq_of_name_eq {first second : Glyph} {codepoint : Int}
    (hfirst : first ∈ Compilation.selected settings corpus.glyphs weight)
    (hsecond : second ∈ Compilation.selected settings corpus.glyphs weight)
    (hencoding : first.encoding? = some codepoint) (hname : second.name = first.name) :
    second = first := by
  have hnatural := hpublishable.isNatural_selected weight
  have hdistinct := hpublishable.nodup_identities_selected weight
  rw [Glyph.name_eq_identity_name, Glyph.name_eq_identity_name,
    Identity.name_eq_iff (hnatural second hsecond) (hnatural first hfirst)] at hname
  rcases hname with hsame | ⟨-, label, -, hlabel, -⟩
  · exact List.inj_on_of_nodup_map hdistinct hsecond hfirst hsame
  · rw [identity_of_encoding? hencoding] at hlabel
    exact absurd hlabel (by simp)

end Compiled

/-- A session compiles every weight of a publishable corpus. -/
theorem IsPublishable.result_compile {value : Value} {session : Session}
    (hread : Settings.ofValue value = .value session.settings) {corpus : Corpus}
    (hpublishable : IsPublishable session.settings corpus) (weight : Weight) :
    (session.compile corpus.glyphs weight).result = .ok ⟨weight,
      (Compilation.selected session.settings corpus.glyphs weight).map
        (Compilation.outlineOf session.settings),
      (Compilation.resolution session.settings corpus.glyphs weight).substitutions⟩ :=
  congrArg (Except.mapError BuildFault.glyph)
    (Compilation.font_eq_ok hread (hpublishable.isRectangular_selected weight))

end Gate

end PixelFont
