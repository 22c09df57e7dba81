import Mathlib.Data.List.DropRight
import Mathlib.Data.List.TakeWhile
import PixelFont.GlyphFile.Lines
import PixelFont.Proofs.Text.Joining
import PixelFont.Proofs.Text.Trimming

/-!
Lines and sections of a text that is put together. Lines that hold no line feed and end solid are
the lines of the text that they make. Lines that may open a file, a raster that neither begins with
such a line nor ends blank, and blank lines behind it are told apart: the header is what is marked
among the first, and the raster is kept whole.
-/

set_option autoImplicit false

namespace PixelFont.GlyphFile

open Text

/-! ### Lines -/

theorem dropReturn_of_endsSolid {line : List Char} (hline : EndsSolid line) :
    dropReturn line = line := by
  refine if_neg fun hreturn ↦ ?_
  have hsolid : isSpace '\r' = false := hline '\r' hreturn
  exact absurd hsolid (by decide)

theorem feed_notMem_splitOn {text piece : List Char} (hpiece : piece ∈ text.splitOn '\n') :
    '\n' ∉ piece := by
  rw [List.splitOn_eq_splitOnP] at hpiece
  exact fun hmem ↦ absurd (forall_mem_splitOnP piece hpiece _ hmem) (by decide)

/-- A line feed ends a line whatever stands before it. -/
theorem lines_append_cons (front rest : List Char) :
    lines (front ++ '\n' :: rest) = lines front ++ lines rest := by
  unfold lines
  rw [List.splitOn_append_cons_self, List.map_append]

/-- A text that ends solid has a line that ends as the text does. -/
theorem exists_mem_lines {text : List Char} {c : Char} (hc : isSpace c = false)
    (hlast : text.getLast? = some c) : ∃ line ∈ lines text, line.getLast? = some c := by
  obtain ⟨piece, hpiece, hend⟩ : ∃ piece ∈ text.splitOn '\n', piece.getLast? = some c := by
    induction text with
    | nil => exact absurd hlast nofun
    | cons first text ih =>
      rw [List.splitOn_cons_eq_if_modifyHead]
      cases text with
      | nil =>
        obtain rfl : first = c := Option.some.inj hlast
        have hfeed : ¬ (first == '\n') = true := by
          rw [beq_iff_eq]
          rintro rfl
          exact absurd hc (by decide)
        rw [if_neg hfeed]
        exact ⟨[first], List.mem_cons_self, rfl⟩
      | cons second text =>
        obtain ⟨piece, hpiece, hend⟩ := ih (by rwa [List.getLast?_cons_cons] at hlast)
        split
        · exact ⟨piece, List.mem_cons_of_mem _ hpiece, hend⟩
        · cases hpieces : (second :: text).splitOn '\n' with
          | nil => exact absurd (hpieces ▸ hpiece) List.not_mem_nil
          | cons head tail =>
            rw [hpieces] at hpiece
            rw [List.modifyHead_cons]
            rcases List.mem_cons.mp hpiece with rfl | htail
            · refine ⟨first :: piece, List.mem_cons_self, ?_⟩
              rw [List.getLast?_cons, hend]
              rfl
            · exact ⟨piece, List.mem_cons_of_mem _ htail, hend⟩
  refine ⟨piece, List.mem_map.mpr ⟨piece, hpiece, dropReturn_of_endsSolid ?_⟩, hend⟩
  intro last hmem
  exact Option.some.inj (hend.symm.trans hmem) ▸ hc

/-- Lines that end solid are the lines of the text in which each of them ends with a line feed. -/
theorem lines_intercalate {texts : List String} (hne : texts ≠ [])
    (hfeed : ∀ text ∈ texts, '\n' ∉ text.toList)
    (hends : ∀ text ∈ texts, EndsSolid text.toList) :
    lines ("\n".intercalate texts ++ "\n").toList = texts.map String.toList ++ [[]] := by
  have hsplit : ("\n".intercalate texts ++ "\n").toList.splitOn '\n' =
      texts.map String.toList ++ [[]] := by
    rw [String.toList_append]
    show ((("\n".intercalate texts).toList ++ '\n' :: []).splitOn '\n') = _
    rw [List.splitOn_append_cons_self, splitOn_intercalate rfl hne hfeed]
    rfl
  have hkept : (texts.map String.toList).map dropReturn = texts.map String.toList := by
    rw [List.map_map]
    exact List.map_congr_left fun text htext ↦ dropReturn_of_endsSolid (hends text htext)
  rw [lines, hsplit, List.map_append, hkept]
  rfl

/-! ### Sections -/

/-- Whether a line may stand before the raster. -/
def isOpening (line : List Char) : Bool :=
  isHeaderLine line || isBlank line

theorem sectionsOfLines_eq (lines : List (List Char)) :
    sectionsOfLines lines =
      ⟨((lines.rdropWhile isBlank).takeWhile isOpening).filter isHeaderLine,
        (lines.rdropWhile isBlank).dropWhile isOpening⟩ :=
  rfl

/-- Lines that do not end blank are kept as they are. -/
theorem rdropWhile_isBlank_eq_self {lines : List (List Char)}
    (hlast : ∀ line ∈ lines.getLast?, isBlank line = false) : lines.rdropWhile isBlank = lines := by
  rw [List.rdropWhile_eq_self_iff]
  intro hne
  rw [hlast _ (List.getLast?_eq_some_getLast hne)]
  exact Bool.false_ne_true

/-- Blank lines behind others are not kept. -/
theorem rdropWhile_isBlank_append {lines trail : List (List Char)}
    (htrail : ∀ line ∈ trail, isBlank line = true) :
    (lines ++ trail).rdropWhile isBlank = lines.rdropWhile isBlank := by
  unfold List.rdropWhile
  rw [List.reverse_append,
    List.dropWhile_append_of_pos fun line hline ↦ htrail line (List.mem_reverse.mp hline)]

/-- The lines that are kept do not end blank. -/
theorem isBlank_getLast?_rdropWhile (lines : List (List Char)) :
    ∀ line ∈ (lines.rdropWhile isBlank).getLast?, isBlank line = false := by
  intro line hline
  have hne : lines.rdropWhile isBlank ≠ [] := List.ne_nil_of_mem (List.mem_of_getLast? hline)
  have hnot := List.rdropWhile_last_not isBlank lines hne
  rw [Option.mem_def, List.getLast?_eq_some_getLast hne, Option.some.injEq] at hline
  rw [hline] at hnot
  exact Bool.eq_false_iff.mpr hnot

/-- No header line is blank. -/
theorem filter_isHeaderLine_of_isBlank {lines : List (List Char)}
    (hblank : ∀ line ∈ lines, isBlank line = true) : lines.filter isHeaderLine = [] := by
  refine List.filter_eq_nil_iff.mpr fun line hline hheader ↦ ?_
  cases line with
  | nil => exact Bool.noConfusion hheader
  | cons c rest =>
    have hspace : c = ' ' ∨ c = '\t' := by
      simpa using List.all_eq_true.mp (hblank _ hline) c List.mem_cons_self
    rcases hspace with rfl | rfl <;> exact Bool.noConfusion hheader

section

variable {opening raster trail : List (List Char)}
  (hopening : ∀ line ∈ opening, isOpening line = true)

include hopening

/-- Without a raster the header is what is marked among all lines. -/
theorem sectionsOfLines_opening :
    sectionsOfLines opening = ⟨opening.filter isHeaderLine, []⟩ := by
  have hkept : ∀ line ∈ opening.rdropWhile isBlank, isOpening line = true :=
    fun line hline ↦ hopening line ((List.rdropWhile_prefix isBlank opening).subset hline)
  have hheader : (opening.rdropWhile isBlank).filter isHeaderLine =
      opening.filter isHeaderLine := by
    have hsplit : opening.rdropWhile isBlank ++ opening.rtakeWhile isBlank = opening :=
      List.rdropWhile_append_rtakeWhile
    have hblank : (opening.rtakeWhile isBlank).filter isHeaderLine = [] :=
      filter_isHeaderLine_of_isBlank fun line hline ↦ List.mem_rtakeWhile_imp hline
    conv_rhs => rw [← hsplit]
    rw [List.filter_append, hblank, List.append_nil]
  rw [sectionsOfLines_eq, List.takeWhile_eq_self_iff.mpr hkept,
    List.dropWhile_eq_nil_iff.mpr hkept, hheader]

/-- The lines before a raster, the raster and the blank lines behind it are told apart. -/
theorem sectionsOfLines_append (hfirst : ∀ line ∈ raster.head?, isOpening line = false)
    (hlast : ∀ line ∈ raster.getLast?, isBlank line = false)
    (htrail : ∀ line ∈ trail, isBlank line = true) :
    sectionsOfLines (opening ++ raster ++ trail) = ⟨opening.filter isHeaderLine, raster⟩ := by
  cases raster with
  | nil =>
    have hall : ∀ line ∈ opening ++ trail, isOpening line = true := by
      intro line hline
      rcases List.mem_append.mp hline with hline | hline
      · exact hopening line hline
      · rw [isOpening, htrail line hline, Bool.or_true]
    rw [List.append_nil, sectionsOfLines_opening hall, List.filter_append,
      filter_isHeaderLine_of_isBlank htrail, List.append_nil]
  | cons first rest =>
    have hkept : (opening ++ first :: rest ++ trail).rdropWhile isBlank =
        opening ++ first :: rest := by
      rw [rdropWhile_isBlank_append htrail]
      refine rdropWhile_isBlank_eq_self fun line hline ↦ hlast line ?_
      rwa [List.getLast?_append_of_ne_nil _ (List.cons_ne_nil first rest)] at hline
    have hstop : ¬ isOpening first = true := by
      rw [hfirst first rfl]
      exact Bool.false_ne_true
    rw [sectionsOfLines_eq, hkept, List.takeWhile_append_of_pos hopening,
      List.dropWhile_append_of_pos hopening, List.takeWhile_cons_of_neg hstop,
      List.dropWhile_cons_of_neg hstop, List.append_nil]

end

/-- Without a raster every line may stand before one. -/
theorem isOpening_of_raster_eq_nil {lines : List (List Char)}
    (hraster : (sectionsOfLines lines).raster = []) : ∀ line ∈ lines, isOpening line = true := by
  have hsplit : lines.rdropWhile isBlank ++ lines.rtakeWhile isBlank = lines :=
    List.rdropWhile_append_rtakeWhile
  intro line hline
  rw [← hsplit] at hline
  rcases List.mem_append.mp hline with hkept | hdropped
  · exact List.dropWhile_eq_nil_iff.mp hraster line hkept
  · rw [isOpening, List.mem_rtakeWhile_imp hdropped, Bool.or_true]

/-- The raster begins with a line that may not stand before it. -/
theorem isOpening_head?_raster (lines : List (List Char)) :
    ∀ line ∈ (sectionsOfLines lines).raster.head?, isOpening line = false := by
  intro line hline
  rw [sectionsOfLines_eq, Option.mem_def] at hline
  have hhead := List.head?_dropWhile_not isOpening (lines.rdropWhile isBlank)
  rw [hline] at hhead
  exact hhead

/-- The raster ends with a line that is not blank. -/
theorem isBlank_getLast?_raster (lines : List (List Char)) :
    ∀ line ∈ (sectionsOfLines lines).raster.getLast?, isBlank line = false := by
  intro line hline
  rw [sectionsOfLines_eq] at hline
  obtain ⟨before, hsplit⟩ := List.dropWhile_suffix isOpening (l := lines.rdropWhile isBlank)
  refine isBlank_getLast?_rdropWhile lines line ?_
  rw [← hsplit, List.getLast?_append, Option.mem_def.mp hline]
  rfl

/-- Lines behind a line that may not stand before the raster belong to it. -/
theorem length_lt_length_raster {opening raster : List (List Char)} {line : List Char}
    (rest : List (List Char)) (hopening : ∀ line ∈ opening, isOpening line = true)
    (hline : isOpening line = false)
    (hlast : ∀ line ∈ raster.getLast?, isBlank line = false) :
    raster.length <
      (sectionsOfLines (opening ++ (line :: rest ++ raster) ++ [[]])).raster.length := by
  obtain ⟨kept, hkept⟩ : ∃ kept, (line :: rest ++ raster).rdropWhile isBlank = kept := ⟨_, rfl⟩
  have hsplit : kept ++ (line :: rest ++ raster).rtakeWhile isBlank = line :: rest ++ raster := by
    rw [← hkept, List.rdropWhile_append_rtakeWhile]
  have hne : kept ≠ [] := by
    intro hnil
    have hblank : isBlank line = true :=
      List.rdropWhile_eq_nil_iff.mp (hkept.trans hnil) line List.mem_cons_self
    rw [(Bool.or_eq_false_iff.mp hline).2] at hblank
    exact Bool.noConfusion hblank
  have hlength : raster.length < kept.length := by
    cases raster with
    | nil => exact List.length_pos_of_ne_nil hne
    | cons first others =>
      have hwhole : kept = line :: rest ++ first :: others := by
        rw [← hkept]
        refine rdropWhile_isBlank_eq_self fun last hmem ↦ hlast last ?_
        rwa [List.getLast?_append_of_ne_nil _ (List.cons_ne_nil first others)] at hmem
      rw [hwhole, List.length_append]
      exact Nat.lt_add_of_pos_left (Nat.succ_pos _)
  have hfirst : ∀ line ∈ kept.head?, isOpening line = false := by
    intro first hmem
    rw [← List.head?_append_of_ne_nil kept hne, hsplit] at hmem
    exact Option.some.inj hmem ▸ hline
  have htrail : ∀ last ∈ (line :: rest ++ raster).rtakeWhile isBlank ++ [[]],
      isBlank last = true := by
    intro last hmem
    rcases List.mem_append.mp hmem with hmem | hmem
    · exact List.mem_rtakeWhile_imp hmem
    · rw [List.mem_singleton.mp hmem]
      rfl
  rw [← hsplit, ← List.append_assoc, List.append_assoc,
    sectionsOfLines_append hopening hfirst (hkept ▸ isBlank_getLast?_rdropWhile _) htrail]
  exact hlength

end PixelFont.GlyphFile
