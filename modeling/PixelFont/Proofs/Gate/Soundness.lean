import PixelFont.Proofs.Build.Outlines
import PixelFont.Proofs.Font.Clash
import PixelFont.Proofs.Gate.Verdict
import PixelFont.Proofs.Glyph.Naming
import PixelFont.Proofs.Glyph.Selection

/-!
What the gate promises of the fonts built behind it. A corpus that passes is compiled in every
weight, and its outlines have distinct codepoints. Their names are distinct as well, but for
ligatures one of which is labelled by the code of the other: the gate compares labels, and such
labels differ. Main statement: `font_of_isValid_report`.
-/

set_option autoImplicit false

namespace PixelFont

namespace Gate

/-- Two ligatures of the font of a weight of which one is labelled by a single character that names
do not take as it is, and the other by the code of that character. -/
def NamesClash (weight : Weight) (glyphs : List Glyph) : Prop :=
  ∃ first ∈ glyphs, ∃ second ∈ glyphs, (first.isLigature = true ∧ second.isLigature = true) ∧
    GlyphName.SpellsCode first.label second.label ∧
      (weight = .regular → first.weight = .regular ∧ second.weight = .regular)

/-! ### Glyphs as drawn -/

theorem IsDrawn.isRectangular {raster : RasterSize} {glyph : Glyph}
    (hdrawn : IsDrawn raster glyph) : glyph.grid.isRectangular = true :=
  Grid.isRectangular_of_forall_length (cellsAcross raster glyph) hdrawn.width

/-! ### Identities -/

variable {settings : Settings} {corpus : Corpus}

/-- The glyphs compiled are the forms of the glyphs looked at. -/
theorem selected_eq (settings : Settings) (corpus : List Glyph) (weight : Weight) :
    Compilation.selected settings corpus weight =
      (activeGlyphs settings corpus).filterMap (weight.form? corpus) :=
  Weight.filter_select _ weight fun glyph form hform ↦ by rw [Weight.isLigature_of_form? hform]

/-- Where ligatures are enabled, every glyph is looked at. -/
theorem activeGlyphs_eq (hligatures : settings.corpus.ligatures = true) (glyphs : List Glyph) :
    activeGlyphs settings glyphs = glyphs := by
  simp [activeGlyphs, hligatures]

/-- Where ligatures are enabled, every glyph of a weight is compiled. -/
theorem selected_eq_select (hligatures : settings.corpus.ligatures = true) (glyphs : List Glyph)
    (weight : Weight) : Compilation.selected settings glyphs weight = weight.select glyphs := by
  simp [Compilation.selected, hligatures]

theorem identity_of_encoding? {glyph : Glyph} {codepoint : Int}
    (hencoding : glyph.encoding? = some codepoint) :
    glyph.identity = .codepoint codepoint := by
  obtain ⟨hkind, hcodepoint⟩ := encoding?_eq_some_iff.mp hencoding
  rw [Glyph.identity, hkind, hcodepoint]

theorem identity_of_isLigature {glyph : Glyph} (hkind : glyph.isLigature = true) :
    glyph.identity = .label glyph.label := by
  rw [Glyph.identity, hkind]

/-- A character that is drawn as it should be has a codepoint. -/
theorem IsDrawn.encoding? {raster : RasterSize} {glyph : Glyph} (hdrawn : IsDrawn raster glyph)
    (hkind : glyph.isLigature = false) :
    ∃ codepoint, glyph.encoding? = some codepoint ∧ 0 ≤ codepoint := by
  obtain ⟨codepoint, hcodepoint⟩ := Option.ne_none_iff_exists'.mp (hdrawn.encoded hkind)
  exact ⟨codepoint, encoding?_eq_some_iff.mpr ⟨hkind, hcodepoint⟩,
    (hdrawn.scalar codepoint hcodepoint).1⟩

theorem IsDrawn.isNatural {raster : RasterSize} {glyph : Glyph} (hdrawn : IsDrawn raster glyph) :
    glyph.identity.IsNatural := by
  intro code hcode
  cases hkind : glyph.isLigature with
  | true =>
    rw [identity_of_isLigature hkind] at hcode
    exact absurd hcode (by simp)
  | false =>
    obtain ⟨codepoint, hencoding, hnatural⟩ := hdrawn.encoding? hkind
    rw [identity_of_encoding? hencoding] at hcode
    exact Identity.codepoint.inj hcode ▸ hnatural

/-- Of glyphs drawn as they should be, those known by a label are the ligatures. -/
theorem IsDrawn.of_identity_eq_label {raster : RasterSize} {glyph : Glyph} {label : String}
    (hdrawn : IsDrawn raster glyph) (hidentity : glyph.identity = .label label) :
    glyph.isLigature = true ∧ glyph.label = label := by
  cases hkind : glyph.isLigature with
  | true =>
    rw [identity_of_isLigature hkind] at hidentity
    exact ⟨rfl, Identity.label.inj hidentity⟩
  | false =>
    obtain ⟨codepoint, hencoding, -⟩ := hdrawn.encoding? hkind
    rw [identity_of_encoding? hencoding] at hidentity
    exact absurd hidentity (by simp)

/-- In a publishable corpus, glyphs of one weight have distinct identities. -/
theorem IsPublishable.pairwise_identity (hpublishable : IsPublishable settings corpus) :
    (activeGlyphs settings corpus.glyphs).Pairwise fun first second ↦
      first.weight = second.weight → first.identity ≠ second.identity := by
  refine (hpublishable.codepoints.and hpublishable.ligatures).imp_of_mem ?_
  rintro first second hfirst hsecond ⟨hcodepoints, hligatures⟩ hweight hidentity
  cases hkind : first.isLigature with
  | true =>
    rw [identity_of_isLigature hkind] at hidentity
    obtain ⟨hother, hlabel⟩ :=
      (hpublishable.drawn second hsecond).of_identity_eq_label hidentity.symm
    exact hligatures ⟨⟨hkind, hother⟩, hlabel.symm, hweight⟩
  | false =>
    obtain ⟨codepoint, hencoding, -⟩ := (hpublishable.drawn first hfirst).encoding? hkind
    rw [identity_of_encoding? hencoding] at hidentity
    cases hother : second.isLigature with
    | true =>
      rw [identity_of_isLigature hother] at hidentity
      exact absurd hidentity (by simp)
    | false =>
      obtain ⟨other, hsame, -⟩ := (hpublishable.drawn second hsecond).encoding? hother
      rw [identity_of_encoding? hsame] at hidentity
      rw [← Identity.codepoint.inj hidentity] at hsame
      exact hcodepoints ⟨⟨codepoint, hencoding, hsame⟩, hweight⟩

/-! ### Names -/

/-- Glyphs of distinct identities have distinct codepoints. -/
theorem nodup_encodings {glyphs : List Glyph}
    (hdistinct : glyphs.Pairwise fun first second ↦ first.identity ≠ second.identity) :
    (glyphs.filterMap Glyph.encoding?).Nodup := by
  refine List.pairwise_filterMap.mpr (hdistinct.imp ?_)
  intro first second hidentity codepoint hfirst other hsecond hsame
  rw [identity_of_encoding? hfirst, identity_of_encoding? hsecond, hsame] at hidentity
  exact hidentity rfl

/-- Glyphs of distinct identities have distinct names unless a label spells the code of another. -/
theorem nodup_names_iff {glyphs : List Glyph}
    (hnatural : ∀ glyph ∈ glyphs, glyph.identity.IsNatural)
    (hdistinct : glyphs.Pairwise fun first second ↦ first.identity ≠ second.identity) :
    (glyphs.map Glyph.name).Nodup ↔
      ∀ first ∈ glyphs, ∀ second ∈ glyphs,
        ¬ Identity.SpellsCode first.identity second.identity := by
  have hname {first second : Glyph} (hfirst : first ∈ glyphs) (hsecond : second ∈ glyphs) :
      first.name = second.name ↔ first.identity = second.identity ∨
        Identity.SpellsCode first.identity second.identity := by
    rw [Glyph.name_eq_identity_name, Glyph.name_eq_identity_name]
    exact Identity.name_eq_iff (hnatural first hfirst) (hnatural second hsecond)
  constructor
  · intro hnames first hfirst second hsecond hspells
    have hsame := (hname hfirst hsecond).mpr (Or.inr hspells)
    obtain rfl := List.inj_on_of_nodup_map hnames hfirst hsecond hsame
    exact Identity.not_spellsCode_self _ hspells
  · intro hnone
    refine List.pairwise_map.mpr (hdistinct.imp_of_mem ?_)
    intro first second hfirst hsecond hidentity hsame
    rcases (hname hfirst hsecond).mp hsame with hequal | hspells
    · exact hidentity hequal
    · exact hnone first hfirst second hsecond hspells

/-- The identities of the glyphs compiled are those of the glyphs that come into the weight. -/
theorem exists_of_mem_selected {weight : Weight} {form : Glyph}
    (hform : form ∈ Compilation.selected settings corpus.glyphs weight) :
    ∃ glyph ∈ activeGlyphs settings corpus.glyphs, form.identity = glyph.identity ∧
      (form.grid = glyph.grid ∨ form.grid = glyph.grid.widen) ∧
        (weight = .regular → glyph.weight = .regular) := by
  rw [selected_eq] at hform
  obtain ⟨glyph, hglyph, hform⟩ := List.mem_filterMap.mp hform
  refine ⟨glyph, hglyph, Weight.identity_of_form? hform, ?_, ?_⟩
  · rcases Weight.eq_or_eq_of_form? hform with rfl | rfl
    · exact Or.inl rfl
    · exact Or.inr rfl
  · rintro rfl
    exact (Weight.form?_regular_eq_some_iff.mp hform).1

/-- A ligature that comes into a weight is known there by its label. -/
theorem exists_selected_of_isLigature {weight : Weight} {glyph : Glyph}
    (hglyph : glyph ∈ activeGlyphs settings corpus.glyphs) (hkind : glyph.isLigature = true)
    (hweight : weight = .regular → glyph.weight = .regular) :
    ∃ form ∈ Compilation.selected settings corpus.glyphs weight,
      form.identity = .label glyph.label := by
  -- Where one ligature is looked at, every glyph is.
  have henabled : settings.corpus.ligatures = true := by
    simpa [hkind] using (mem_activeGlyphs_iff.mp hglyph).2
  rw [selected_eq, ← identity_of_isLigature hkind]
  refine Weight.exists_form_identity hglyph hweight fun other hother _ ↦ ?_
  exact mem_activeGlyphs_iff.mpr ⟨hother, Or.inl henabled⟩

/-- A label spells the code of another among the glyphs of a weight exactly if it does among the
ligatures of the corpus that come into that weight. -/
theorem IsPublishable.exists_spellsCode_iff (hpublishable : IsPublishable settings corpus)
    (weight : Weight) :
    (∃ first ∈ Compilation.selected settings corpus.glyphs weight,
        ∃ second ∈ Compilation.selected settings corpus.glyphs weight,
          Identity.SpellsCode first.identity second.identity) ↔
      NamesClash weight (activeGlyphs settings corpus.glyphs) := by
  constructor
  · rintro ⟨form, hform, other, hother, text, code, htext, hcode, hspells⟩
    obtain ⟨first, hfirst, hfirstIdentity, -, hfirstWeight⟩ := exists_of_mem_selected hform
    obtain ⟨second, hsecond, hsecondIdentity, -, hsecondWeight⟩ := exists_of_mem_selected hother
    obtain ⟨hfirstKind, rfl⟩ := (hpublishable.drawn first hfirst).of_identity_eq_label
      (hfirstIdentity.symm.trans htext)
    obtain ⟨hsecondKind, rfl⟩ := (hpublishable.drawn second hsecond).of_identity_eq_label
      (hsecondIdentity.symm.trans hcode)
    rcases hspells with hspells | hspells
    · exact ⟨first, hfirst, second, hsecond, ⟨hfirstKind, hsecondKind⟩, hspells,
        fun h ↦ ⟨hfirstWeight h, hsecondWeight h⟩⟩
    · exact ⟨second, hsecond, first, hfirst, ⟨hsecondKind, hfirstKind⟩, hspells,
        fun h ↦ ⟨hsecondWeight h, hfirstWeight h⟩⟩
  · rintro ⟨first, hfirst, second, hsecond, ⟨hfirstKind, hsecondKind⟩, hspells, hweight⟩
    obtain ⟨form, hform, hformIdentity⟩ :=
      exists_selected_of_isLigature hfirst hfirstKind fun h ↦ (hweight h).1
    obtain ⟨other, hother, hotherIdentity⟩ :=
      exists_selected_of_isLigature hsecond hsecondKind fun h ↦ (hweight h).2
    exact ⟨form, hform, other, hother, _, _, hformIdentity, hotherIdentity, Or.inl hspells⟩

/-! ### Fonts -/

section Fonts

variable (hpublishable : IsPublishable settings corpus) (weight : Weight)
include hpublishable

theorem IsPublishable.isRectangular_selected :
    ∀ form ∈ Compilation.selected settings corpus.glyphs weight,
      form.grid.isRectangular = true := by
  intro form hform
  obtain ⟨glyph, hglyph, -, hgrid, -⟩ := exists_of_mem_selected hform
  have hrectangular := (hpublishable.drawn glyph hglyph).isRectangular
  rcases hgrid with hgrid | hgrid
  · rw [hgrid, hrectangular]
  · rw [hgrid, Grid.isRectangular_widen hrectangular]

theorem IsPublishable.isNatural_selected :
    ∀ form ∈ Compilation.selected settings corpus.glyphs weight, form.identity.IsNatural := by
  intro form hform
  obtain ⟨glyph, hglyph, hidentity, -, -⟩ := exists_of_mem_selected hform
  rw [hidentity]
  exact (hpublishable.drawn glyph hglyph).isNatural

theorem IsPublishable.pairwise_identity_selected :
    (Compilation.selected settings corpus.glyphs weight).Pairwise
      fun first second ↦ first.identity ≠ second.identity := by
  rw [selected_eq]
  exact Weight.pairwise_identity_filterMap weight
    (fun glyph hglyph ↦ (mem_activeGlyphs_iff.mp hglyph).1) hpublishable.pairwise_identity

theorem IsPublishable.nodup_names_selected_iff :
    ((Compilation.selected settings corpus.glyphs weight).map Glyph.name).Nodup ↔
      ¬ NamesClash weight (activeGlyphs settings corpus.glyphs) := by
  rw [nodup_names_iff (hpublishable.isNatural_selected weight)
    (hpublishable.pairwise_identity_selected weight),
    ← hpublishable.exists_spellsCode_iff weight]
  simp only [not_exists, not_and]

end Fonts

/-- A corpus that passes the gate compiles in every weight. No outline has the name of the empty
glyph, and the codepoints are distinct. The names are distinct, and so no font is refused for a
name, exactly if no ligature is labelled by the code of another's label. -/
theorem font_of_isValid_report {value : Value} {settings : Settings}
    (hread : Settings.ofValue value = .value settings) {view : Viewpoint} {corpus : Corpus}
    (hvalid : (report settings view corpus).isValid = true) (weight : Weight) :
    ∃ compiled, Compilation.font settings corpus.glyphs weight = .ok compiled ∧
      GlyphName.notdef ∉ compiled.outlines.map Outline.name ∧
      (compiled.outlines.filterMap Outline.encoding).Nodup ∧
      ((compiled.outlines.map Outline.name).Nodup ↔
        ¬ NamesClash weight (activeGlyphs settings corpus.glyphs)) ∧
      ((∃ name, Font.assemble settings compiled = .error (.repeatedName name)) ↔
        NamesClash weight (activeGlyphs settings corpus.glyphs)) ∧
      ∀ codepoint, Font.assemble settings compiled ≠ .error (.repeatedCodepoint codepoint) := by
  have hpublishable : IsPublishable settings corpus :=
    (isValid_report_iff_isPublishable (Settings.isAccepted_of_ofValue hread)).mp hvalid
  have hcompiled := Compilation.font_eq_ok hread (hpublishable.isRectangular_selected weight)
  refine ⟨_, hcompiled, ?_⟩
  generalize hfont : CompiledFont.mk weight _ _ = compiled
  have houtlines : compiled.outlines = (Compilation.selected settings corpus.glyphs weight).map
      (Compilation.outlineOf settings) := by
    rw [← hfont]
  have hnotdef : GlyphName.notdef ∉ compiled.outlines.map Outline.name := by
    rw [houtlines, Compilation.map_name_outlineOf]
    exact Glyph.notdef_notMem_map_name _
  have hencodings : (compiled.outlines.filterMap Outline.encoding).Nodup := by
    rw [houtlines, Compilation.filterMap_encoding_outlineOf]
    exact nodup_encodings (hpublishable.pairwise_identity_selected weight)
  have hnames : (compiled.outlines.map Outline.name).Nodup ↔
      ¬ NamesClash weight (activeGlyphs settings corpus.glyphs) := by
    rw [houtlines, Compilation.map_name_outlineOf]
    exact hpublishable.nodup_names_selected_iff weight
  obtain ⟨hrepeated, hcodepoint⟩ := Font.assemble_clash_iff settings hnotdef hencodings
  exact ⟨hnotdef, hencodings, hnames, hrepeated.trans (not_iff_comm.mp hnames.symm), hcodepoint⟩

/-- At rasters of one cell, a corpus of a letter and of ligatures labelled by two characters and by
the code of one of them has a bold font whose names are distinct. -/
theorem font_of_isValid_report_oneCell :
    let value : Value := .record [
      ("grid", .record [("width", .int 1), ("height", .int 1), ("baseline_row", .int 1)]),
      ("corpus", .record [("required_start", .int 65), ("required_end", .int 65)])]
    let settings : Settings :=
      { raster := ⟨1, 1, 1⟩, corpus := { requiredStart := 65, requiredEnd := 65 } }
    let letter : Glyph :=
      { label := "A", codepoint := some 65, grid := [[true]], rasterLines := ["X"] }
    let pair : Glyph :=
      { label := "!!", codepoint := none, grid := [[true, true]], components := some ["A", "A"],
        kind := .ligature, rasterLines := ["XX"] }
    let corpus : Corpus :=
      { glyphs := [letter, { letter with weight := .bold }, pair, { pair with label := "0021" }] }
    Settings.ofValue value = .value settings ∧
      (report settings ⟨[], Path.here⟩ corpus).isValid = true ∧
      ∃ compiled, Compilation.font settings corpus.glyphs .bold = .ok compiled ∧
        (compiled.outlines.map Outline.name).Nodup := by
  intro value settings letter pair corpus
  have hread : Settings.ofValue value = .value settings := rfl
  have hvalid : (report settings ⟨[], Path.here⟩ corpus).isValid = true := by decide +kernel
  have hlabels : ∀ glyph ∈ activeGlyphs settings corpus.glyphs,
      glyph.isLigature = true → glyph.label.length ≠ 1 := by decide
  have hclash : ¬ NamesClash .bold (activeGlyphs settings corpus.glyphs) := by
    rintro ⟨first, hfirst, second, hsecond, ⟨hkind, -⟩, ⟨c, -, hlabel, -⟩, -⟩
    exact hlabels first hfirst hkind (by simp [hlabel])
  obtain ⟨compiled, hcompiled, -, -, hnames, -⟩ := font_of_isValid_report hread hvalid .bold
  exact ⟨hread, hvalid, compiled, hcompiled, hnames.mpr hclash⟩

/-- Where one of the ligatures is labelled by the character alone, the gate lets the corpus pass,
and the regular font is refused: both ligatures have one name. -/
theorem repeatedName_of_isValid_report :
    let value : Value := .record [
      ("grid", .record [("width", .int 1), ("height", .int 1), ("baseline_row", .int 1)]),
      ("corpus", .record [("required_start", .int 65), ("required_end", .int 65)])]
    let settings : Settings :=
      { raster := ⟨1, 1, 1⟩, corpus := { requiredStart := 65, requiredEnd := 65 } }
    let letter : Glyph :=
      { label := "A", codepoint := some 65, grid := [[true]], rasterLines := ["X"] }
    let pair : Glyph :=
      { label := "!", codepoint := none, grid := [[true, true]], components := some ["A", "A"],
        kind := .ligature, rasterLines := ["XX"] }
    let triple : Glyph :=
      { label := "0021", codepoint := none, grid := [[true, true, true]],
        components := some ["A", "A", "A"], kind := .ligature, rasterLines := ["XXX"] }
    let corpus : Corpus := { glyphs := [letter, pair, triple] }
    Settings.ofValue value = .value settings ∧
      (report settings ⟨[], Path.here⟩ corpus).isValid = true ∧
      ∃ compiled, Compilation.font settings corpus.glyphs .regular = .ok compiled ∧
        Font.assemble settings compiled = .error (.repeatedName "lig.0021") := by
  intro value settings letter pair triple corpus
  have hread : Settings.ofValue value = .value settings := rfl
  have hvalid : (report settings ⟨[], Path.here⟩ corpus).isValid = true := by decide +kernel
  have hcompiled : Compilation.font settings corpus.glyphs .regular = .ok ⟨.regular,
      (Compilation.selected settings corpus.glyphs .regular).map (Compilation.outlineOf settings),
      (Compilation.resolution settings corpus.glyphs .regular).substitutions⟩ :=
    Compilation.font_eq_ok hread (by decide)
  refine ⟨hread, hvalid, _, hcompiled, (Font.assemble_eq_error_iff settings (by simp)).mpr ?_⟩
  decide +kernel

end Gate

end PixelFont
