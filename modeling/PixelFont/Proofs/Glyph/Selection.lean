import Mathlib.Data.List.Basic
import Mathlib.Data.List.Pairwise
import PixelFont.Glyph.Name
import PixelFont.Glyph.Selection

/-!
What the font of a weight takes of each glyph of a corpus: the glyph itself, a bold form derived
from it, or nothing. A form keeps the identity of its glyph, and no character has two forms if no
two glyphs of one weight draw it. A drawn bold glyph takes precedence wherever it stands, so that
the bold font draws the characters of the corpus and no others. Main statement:
`select_prefersDrawn`.
-/

set_option autoImplicit false

namespace PixelFont

namespace Weight

/-- What the font of a weight takes of a glyph of a corpus. -/
def form? (corpus : List Glyph) : Weight → Glyph → Option Glyph
  | .regular, glyph => if glyph.weight == .regular then some glyph else none
  | .bold, glyph => Glyph.boldForm? (Glyph.boldIdentities corpus) glyph

variable {corpus : List Glyph} {glyph form : Glyph}

theorem select_eq_filterMap (corpus : List Glyph) (weight : Weight) :
    weight.select corpus = corpus.filterMap (form? corpus weight) := by
  cases weight with
  | regular =>
    rw [Weight.select, ← List.filterMap_eq_filter]
    rfl
  | bold => rfl

theorem mem_boldIdentities_iff {identity : Identity} :
    identity ∈ Glyph.boldIdentities corpus ↔
      ∃ glyph ∈ corpus, glyph.weight = .bold ∧ glyph.identity = identity := by
  simp [Glyph.boldIdentities, and_assoc]

/-- The regular font takes the regular glyphs. -/
theorem form?_regular_eq_some_iff :
    form? corpus .regular glyph = some form ↔ glyph.weight = .regular ∧ glyph = form := by
  simp [form?]

/-- The bold font takes the bold glyphs, and widens a regular one where no glyph draws its
character bold. -/
theorem form?_bold_eq_some_iff :
    form? corpus .bold glyph = some form ↔
      glyph.weight = .bold ∧ glyph = form ∨
        glyph.weight = .regular ∧ glyph.identity ∉ Glyph.boldIdentities corpus ∧
          glyph.deriveBold = form := by
  rw [form?, Glyph.boldForm?]
  cases glyph.weight with
  | regular =>
    by_cases hdrawn : glyph.identity ∈ Glyph.boldIdentities corpus <;> simp [hdrawn]
  | bold => simp

/-- A form is the glyph itself or its bold form, and has the weight of the font. -/
theorem eq_or_eq_of_form? {weight : Weight} (hform : form? corpus weight glyph = some form) :
    form = glyph ∨ form = glyph.deriveBold := by
  cases weight with
  | regular => exact Or.inl (form?_regular_eq_some_iff.mp hform).2.symm
  | bold =>
    rcases form?_bold_eq_some_iff.mp hform with ⟨-, rfl⟩ | ⟨-, -, rfl⟩
    · exact Or.inl rfl
    · exact Or.inr rfl

theorem identity_of_form? {weight : Weight} (hform : form? corpus weight glyph = some form) :
    form.identity = glyph.identity := by
  rcases eq_or_eq_of_form? hform with rfl | rfl <;> rfl

theorem isLigature_of_form? {weight : Weight} (hform : form? corpus weight glyph = some form) :
    form.isLigature = glyph.isLigature := by
  rcases eq_or_eq_of_form? hform with rfl | rfl <;> rfl

theorem label_of_form? {weight : Weight} (hform : form? corpus weight glyph = some form) :
    form.label = glyph.label := by
  rcases eq_or_eq_of_form? hform with rfl | rfl <;> rfl

theorem encoding?_of_form? {weight : Weight} (hform : form? corpus weight glyph = some form) :
    form.encoding? = glyph.encoding? := by
  rcases eq_or_eq_of_form? hform with rfl | rfl <;> rfl

theorem componentLabels_of_form? {weight : Weight}
    (hform : form? corpus weight glyph = some form) :
    form.componentLabels = glyph.componentLabels := by
  rcases eq_or_eq_of_form? hform with rfl | rfl <;> rfl

/-- A form has the weight of the font, drawn or derived. -/
theorem weight_of_form? {weight : Weight} (hform : form? corpus weight glyph = some form) :
    form.weight = weight := by
  cases weight with
  | regular =>
    obtain ⟨hregular, rfl⟩ := form?_regular_eq_some_iff.mp hform
    exact hregular
  | bold =>
    rcases form?_bold_eq_some_iff.mp hform with ⟨hbold, rfl⟩ | ⟨-, -, rfl⟩
    · exact hbold
    · rfl

/-- Glyphs of different weights have no form in common. -/
theorem weight_eq_of_form? {weight : Weight} {other : Glyph} (hglyph : glyph ∈ corpus)
    (hother : other ∈ corpus) (hform : form? corpus weight glyph = some form)
    (hsame : form? corpus weight other = some form) : glyph.weight = other.weight := by
  have hidentity := (identity_of_form? hform).symm.trans (identity_of_form? hsame)
  cases weight with
  | regular =>
    exact (form?_regular_eq_some_iff.mp hform).1.trans (form?_regular_eq_some_iff.mp hsame).1.symm
  | bold =>
    rcases form?_bold_eq_some_iff.mp hform with ⟨hbold, -⟩ | ⟨hregular, hdrawn, -⟩
    · rcases form?_bold_eq_some_iff.mp hsame with ⟨hotherBold, -⟩ | ⟨-, hotherDrawn, -⟩
      · rw [hbold, hotherBold]
      · exact absurd (mem_boldIdentities_iff.mpr ⟨glyph, hglyph, hbold, hidentity⟩) hotherDrawn
    · rcases form?_bold_eq_some_iff.mp hsame with ⟨hotherBold, -⟩ | ⟨hotherRegular, -, -⟩
      · exact absurd (mem_boldIdentities_iff.mpr ⟨other, hother, hotherBold, hidentity.symm⟩) hdrawn
      · rw [hregular, hotherRegular]

/-- A condition that forms take over from their glyphs may be asked of either. -/
theorem filter_select (keep : Glyph → Bool) (weight : Weight)
    (hkeep : ∀ glyph form, form? corpus weight glyph = some form → keep form = keep glyph) :
    (weight.select corpus).filter keep =
      (corpus.filter keep).filterMap (form? corpus weight) := by
  rw [select_eq_filterMap, List.filter_filterMap, List.filterMap_filter]
  refine List.filterMap_congr fun glyph _ ↦ ?_
  cases hform : form? corpus weight glyph with
  | none => simp
  | some form => simp [Option.filter, hkeep glyph form hform]

/-- No two forms draw one character if no two glyphs of one weight do. -/
theorem pairwise_identity_filterMap {glyphs : List Glyph} (weight : Weight)
    (hcorpus : ∀ glyph ∈ glyphs, glyph ∈ corpus)
    (hglyphs : glyphs.Pairwise fun first second ↦
      first.weight = second.weight → first.identity ≠ second.identity) :
    (glyphs.filterMap (form? corpus weight)).Pairwise fun first second ↦
      first.identity ≠ second.identity := by
  -- A regular glyph whose character a bold one draws has no form in the bold font.
  have hmixed {bold regular : Glyph} (hmem : bold ∈ glyphs) (hbold : bold.weight = .bold)
      (hregular : regular.identity ∉ Glyph.boldIdentities corpus) :
      bold.identity ≠ regular.identity := fun hsame ↦
    hregular (mem_boldIdentities_iff.mpr ⟨bold, hcorpus bold hmem, hbold, hsame⟩)
  rw [List.pairwise_filterMap]
  refine hglyphs.imp_of_mem fun {first second} hfirst hsecond hdistinct form hform other hother ↦ ?_
  rw [identity_of_form? hform, identity_of_form? hother]
  cases weight with
  | regular =>
    have hweight := (form?_regular_eq_some_iff.mp hform).1
    exact hdistinct (hweight.trans (form?_regular_eq_some_iff.mp hother).1.symm)
  | bold =>
    rcases form?_bold_eq_some_iff.mp hform with ⟨hbold, -⟩ | ⟨hregular, hdrawn, -⟩
    · rcases form?_bold_eq_some_iff.mp hother with ⟨hother, -⟩ | ⟨-, hother, -⟩
      · exact hdistinct (hbold.trans hother.symm)
      · exact hmixed hfirst hbold hother
    · rcases form?_bold_eq_some_iff.mp hother with ⟨hother, -⟩ | ⟨hother, -, -⟩
      · exact (hmixed hsecond hother hdrawn).symm
      · exact hdistinct (hregular.trans hother.symm)

/-- A character that a glyph draws has a form in the bold font, and in the regular one if the glyph
is regular. -/
theorem exists_form_identity {glyphs : List Glyph} {weight : Weight} (hglyph : glyph ∈ glyphs)
    (hweight : weight = .regular → glyph.weight = .regular)
    (hdrawn : ∀ other ∈ corpus, other.identity = glyph.identity → other ∈ glyphs) :
    ∃ form ∈ glyphs.filterMap (form? corpus weight), form.identity = glyph.identity := by
  have htaken {other : Glyph} (hother : other ∈ glyphs) (hsame : other.identity = glyph.identity)
      {form : Glyph} (hform : form? corpus weight other = some form) :
      ∃ form ∈ glyphs.filterMap (form? corpus weight), form.identity = glyph.identity :=
    ⟨form, List.mem_filterMap.mpr ⟨other, hother, hform⟩, (identity_of_form? hform).trans hsame⟩
  cases weight with
  | regular => exact htaken hglyph rfl (form?_regular_eq_some_iff.mpr ⟨hweight rfl, rfl⟩)
  | bold =>
    by_cases hbold : glyph.identity ∈ Glyph.boldIdentities corpus
    · obtain ⟨other, hother, hotherBold, hsame⟩ := mem_boldIdentities_iff.mp hbold
      exact htaken (hdrawn other hother hsame) hsame
        (form?_bold_eq_some_iff.mpr (Or.inl ⟨hotherBold, rfl⟩))
    · cases hown : glyph.weight with
      | bold => exact htaken hglyph rfl (form?_bold_eq_some_iff.mpr (Or.inl ⟨hown, rfl⟩))
      | regular =>
        exact htaken hglyph rfl (form?_bold_eq_some_iff.mpr (Or.inr ⟨hown, hbold, rfl⟩))

end Weight

/-! ### The bold selection -/

namespace Glyph

/-- Whether the bold font of a corpus takes a glyph: it is bold itself, or no bold glyph of the
corpus has its identity. -/
def IsTakenBold (corpus : List Glyph) (glyph : Glyph) : Prop :=
  glyph.weight = .bold ∨ ∀ drawn ∈ corpus, drawn.weight = .bold → drawn.identity ≠ glyph.identity

instance (corpus : List Glyph) : DecidablePred (IsTakenBold corpus) :=
  fun _ ↦ inferInstanceAs (Decidable (_ = _ ∨ ∀ _ ∈ _, _ → _))

/-- What the bold font takes of a glyph: a bold one as it is, and the bold form of a regular one. -/
def boldForm (glyph : Glyph) : Glyph :=
  if glyph.weight = .bold then glyph else glyph.deriveBold

end Glyph

namespace Weight

variable {corpus : List Glyph}

theorem isTakenBold_iff_of_regular {glyph : Glyph} (hregular : glyph.weight = .regular) :
    glyph.IsTakenBold corpus ↔ glyph.identity ∉ Glyph.boldIdentities corpus := by
  have hnotBold : glyph.weight ≠ .bold := by simp [hregular]
  rw [Glyph.IsTakenBold, or_iff_right hnotBold, mem_boldIdentities_iff]
  simp

theorem form?_bold_eq (corpus : List Glyph) (glyph : Glyph) :
    form? corpus .bold glyph =
      if glyph.IsTakenBold corpus then some glyph.boldForm else none := by
  rw [form?, Glyph.boldForm?, Glyph.boldForm]
  cases hweight : glyph.weight with
  | bold => simp [Glyph.IsTakenBold, hweight]
  | regular => simp [isTakenBold_iff_of_regular hweight]

/-- The bold font takes the bold form of each glyph that it takes, in the order of the corpus. -/
theorem select_bold_eq (corpus : List Glyph) :
    Weight.bold.select corpus =
      (corpus.filter (Glyph.IsTakenBold corpus ·)).map Glyph.boldForm := by
  rw [select_eq_filterMap, ← List.filterMap_eq_map, List.filterMap_filter]
  refine List.filterMap_congr fun glyph _ ↦ ?_
  simp only [form?_bold_eq, decide_eq_true_eq, Function.comp_apply]

/-- Identities that are distinct among the glyphs of each weight tell any two glyphs of one weight
apart. -/
theorem pairwise_identity_of_nodup
    (hregular : ((corpus.filter (·.weight == .regular)).map Glyph.identity).Nodup)
    (hbold : ((corpus.filter (·.weight == .bold)).map Glyph.identity).Nodup) :
    corpus.Pairwise fun first second ↦
      first.weight = second.weight → first.identity ≠ second.identity := by
  unfold List.Nodup at hregular hbold
  rw [List.pairwise_map, List.pairwise_filter] at hregular hbold
  refine (hregular.and hbold).imp fun {first second} hdistinct hsame ↦ ?_
  cases hweight : first.weight with
  | regular => exact hdistinct.1 (by simp [hweight]) (by simp [← hsame, hweight])
  | bold => exact hdistinct.2 (by simp [hweight]) (by simp [← hsame, hweight])

theorem weight_of_mem_select {weight : Weight} {form : Glyph}
    (hform : form ∈ weight.select corpus) : form.weight = weight := by
  rw [select_eq_filterMap] at hform
  obtain ⟨glyph, -, hglyph⟩ := List.mem_filterMap.mp hform
  exact weight_of_form? hglyph

/-- The bold font draws the characters of the corpus and no others. -/
theorem mem_identities_select_bold_iff {identity : Identity} :
    identity ∈ (Weight.bold.select corpus).map Glyph.identity ↔
      identity ∈ corpus.map Glyph.identity := by
  rw [select_eq_filterMap]
  constructor
  · intro hidentity
    obtain ⟨form, hform, rfl⟩ := List.mem_map.mp hidentity
    obtain ⟨glyph, hglyph, hsame⟩ := List.mem_filterMap.mp hform
    exact List.mem_map.mpr ⟨glyph, hglyph, (identity_of_form? hsame).symm⟩
  · intro hidentity
    obtain ⟨glyph, hglyph, rfl⟩ := List.mem_map.mp hidentity
    exact List.mem_map.mpr (exists_form_identity hglyph nofun fun _ hother _ ↦ hother)

/-- A derived form does not have the identity of a bold glyph. -/
theorem identity_deriveBold_ne {glyph drawn : Glyph} (hregular : glyph.weight = .regular)
    (htaken : glyph.IsTakenBold corpus) (hdrawn : drawn ∈ corpus) (hbold : drawn.weight = .bold) :
    glyph.deriveBold.identity ≠ drawn.identity := by
  intro hsame
  rw [isTakenBold_iff_of_regular hregular, mem_boldIdentities_iff] at htaken
  exact htaken ⟨drawn, hdrawn, hbold, hsame.symm⟩

theorem nodup_identities_select_bold
    (hregular : ((corpus.filter (·.weight == .regular)).map Glyph.identity).Nodup)
    (hbold : ((corpus.filter (·.weight == .bold)).map Glyph.identity).Nodup) :
    ((Weight.bold.select corpus).map Glyph.identity).Nodup := by
  rw [select_eq_filterMap, List.Nodup, List.pairwise_map]
  exact pairwise_identity_filterMap .bold (fun _ hglyph ↦ hglyph)
    (pairwise_identity_of_nodup hregular hbold)

/-- The bold font takes, in the order of the corpus, every bold glyph as it is and the bold form of
every regular glyph whose identity no bold one has. All that it takes is bold, it draws the
characters of the corpus and no others, none of them both drawn and derived, and none twice if no
weight of the corpus does. The regular font takes the regular glyphs. -/
theorem select_prefersDrawn (corpus : List Glyph) :
    Weight.bold.select corpus =
        (corpus.filter (Glyph.IsTakenBold corpus ·)).map Glyph.boldForm ∧
      (∀ form ∈ Weight.bold.select corpus, form.weight = .bold) ∧
      (∀ identity, identity ∈ (Weight.bold.select corpus).map Glyph.identity ↔
        identity ∈ corpus.map Glyph.identity) ∧
      (∀ glyph ∈ corpus, glyph.weight = .regular → glyph.IsTakenBold corpus →
        ∀ drawn ∈ corpus, drawn.weight = .bold → glyph.deriveBold.identity ≠ drawn.identity) ∧
      (((corpus.filter (·.weight == .regular)).map Glyph.identity).Nodup →
        ((corpus.filter (·.weight == .bold)).map Glyph.identity).Nodup →
        ((Weight.bold.select corpus).map Glyph.identity).Nodup) ∧
      Weight.regular.select corpus = corpus.filter (·.weight == .regular) :=
  ⟨select_bold_eq corpus, fun _ ↦ weight_of_mem_select, fun _ ↦ mem_identities_select_bold_iff,
    fun _ _ hregular htaken _ ↦ identity_deriveBold_ne hregular htaken,
    nodup_identities_select_bold, rfl⟩

/-- A letter whose bold drawing comes after it and a ligature whose bold drawing comes before it,
with a letter between that has the label of the ligature and no bold drawing. -/
theorem select_prefersDrawn_interleaved :
    let letter : Glyph := { label := "A", codepoint := some 65, grid := [[true]] }
    let ligature : Glyph :=
      { label := "fi", codepoint := none, grid := [[true]], components := some ["f", "i"],
        kind := .ligature }
    let lone : Glyph := { label := "fi", codepoint := some 64257, grid := [[true, false]] }
    let corpus := [{ ligature with weight := .bold }, letter, lone, ligature,
      { letter with label := "a", weight := .bold }]
    lone ∈ corpus ∧ lone.weight = .regular ∧ lone.IsTakenBold corpus ∧
      ((corpus.filter (·.weight == .regular)).map Glyph.identity).Nodup ∧
      ((corpus.filter (·.weight == .bold)).map Glyph.identity).Nodup ∧
      (∀ drawn ∈ corpus, drawn.weight = .bold → lone.deriveBold.identity ≠ drawn.identity) ∧
      ((Weight.bold.select corpus).map Glyph.identity).Nodup := by
  intro letter ligature lone corpus
  have hmem : lone ∈ corpus := by decide
  have htaken : lone.IsTakenBold corpus := by decide
  have hregular : ((corpus.filter (·.weight == .regular)).map Glyph.identity).Nodup := by decide
  have hbold : ((corpus.filter (·.weight == .bold)).map Glyph.identity).Nodup := by decide
  obtain ⟨-, -, -, hapart, hdistinct, -⟩ := select_prefersDrawn corpus
  exact ⟨hmem, rfl, htaken, hregular, hbold, hapart lone hmem rfl htaken, hdistinct hregular hbold⟩

end Weight

end PixelFont
