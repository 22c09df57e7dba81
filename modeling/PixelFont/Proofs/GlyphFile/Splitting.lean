import Mathlib.Data.List.Forall2
import PixelFont.GlyphFile.Reader
import PixelFont.Proofs.GlyphFile.Sections

/-!
Splitting a text into lines and sections loses nothing. The lines are what stands between the line
feeds, and the sections are found one behind the other among them: lines that may open a file, the
raster, and blank lines (`divide_sectionsOfLines`). Neither blank lines behind a text nor carriage
returns before its line feeds change the sections, and so they change nothing of what is read. Main
statement: `sections_loseNothing`.
-/

set_option autoImplicit false

namespace PixelFont.GlyphFile

open Text

/-! ### Lines -/

/-- Whether a line is what is kept of a piece of a text: all but one carriage return at the end. -/
def IsLineOf (piece line : List Char) : Prop :=
  piece = line ++ ['\r'] ∨ (piece = line ∧ piece.getLast? ≠ some '\r')

/-- Whether lines are those of a text: what is kept of the pieces between its line feeds. -/
def AreLinesOf (lines : List (List Char)) (text : List Char) : Prop :=
  ∃ pieces, pieces ≠ [] ∧ (∀ piece ∈ pieces, '\n' ∉ piece) ∧ ['\n'].intercalate pieces = text ∧
    List.Forall₂ IsLineOf pieces lines

theorem isLineOf_dropReturn (piece : List Char) : IsLineOf piece (dropReturn piece) := by
  unfold dropReturn
  split
  · rename_i hreturn
    obtain ⟨front, rfl⟩ := List.getLast?_eq_some_iff.mp hreturn
    rw [List.dropLast_concat]
    exact Or.inl rfl
  · rename_i hreturn
    exact Or.inr ⟨rfl, hreturn⟩

theorem areLinesOf_lines (text : List Char) : AreLinesOf (lines text) text := by
  refine ⟨text.splitOn '\n', List.splitOn_ne_nil _ _, fun _ ↦ feed_notMem_splitOn,
    List.intercalate_splitOn '\n', ?_⟩
  rw [lines, List.forall₂_map_right_iff, List.forall₂_same]
  exact fun piece _ ↦ isLineOf_dropReturn piece

/-! ### Carriage returns -/

/-- A text in which a carriage return stands before every line feed. -/
def withReturns (text : List Char) : List Char :=
  text.flatMap fun c ↦ if c = '\n' then ['\r', '\n'] else [c]

/-- The pieces of a text gain nothing but a carriage return at the end. -/
theorem forall₂_splitOn_withReturns (text : List Char) :
    List.Forall₂ (fun piece other ↦ other = piece ∨ other = piece ++ ['\r'])
      (text.splitOn '\n') ((withReturns text).splitOn '\n') := by
  induction text with
  | nil => exact List.Forall₂.cons (Or.inl rfl) .nil
  | cons c text ih =>
    by_cases hc : c = '\n'
    · subst hc
      have hfeed : ('\n' :: text).splitOn '\n' = [] :: text.splitOn '\n' :=
        List.splitOn_append_cons_self [] text
      have hreturn : (withReturns ('\n' :: text)).splitOn '\n' =
          ['\r'] :: (withReturns text).splitOn '\n' :=
        List.splitOn_append_cons_self ['\r'] (withReturns text)
      rw [hfeed, hreturn]
      exact ih.cons (Or.inr rfl)
    · have hkept : withReturns (c :: text) = c :: withReturns text := by
        simp [withReturns, hc]
      rw [hkept, List.splitOn_cons_eq_if_modifyHead, List.splitOn_cons_eq_if_modifyHead,
        if_neg (by simpa using hc), if_neg (by simpa using hc)]
      generalize text.splitOn '\n' = pieces at ih
      generalize (withReturns text).splitOn '\n' = others at ih
      cases ih with
      | nil => exact .nil
      | cons hhead htail =>
        rw [List.modifyHead_cons, List.modifyHead_cons]
        exact .cons (hhead.imp (congrArg (c :: ·)) (congrArg (c :: ·))) htail

/-- Carriage returns before line feeds belong to no line, if no line ends with one anyway. -/
theorem lines_withReturns {text : List Char}
    (hfree : ∀ piece ∈ text.splitOn '\n', piece.getLast? ≠ some '\r') :
    lines (withReturns text) = lines text := by
  have hkept {piece : List Char} (hpiece : piece.getLast? ≠ some '\r') :
      dropReturn piece = piece := if_neg hpiece
  have hdropped (piece : List Char) : dropReturn (piece ++ ['\r']) = piece := by
    rw [dropReturn, if_pos List.getLast?_concat, List.dropLast_concat]
  have hpieces := forall₂_splitOn_withReturns text
  unfold lines
  generalize text.splitOn '\n' = pieces at hfree hpieces
  generalize (withReturns text).splitOn '\n' = others at hpieces
  induction hpieces with
  | nil => rfl
  | cons hhead htail ih =>
    rw [List.forall_mem_cons] at hfree
    rw [List.map_cons, List.map_cons, ih hfree.2, hkept hfree.1]
    rcases hhead with rfl | rfl
    · rw [hkept hfree.1]
    · rw [hdropped]

/-! ### Sections -/

/-- Whether sections are found among lines: behind lines that are blank or marked as header lines,
of which the header is made, stands the raster, which begins with no such line and does not end
blank, and behind it nothing but blank lines. -/
def Sections.Divide (parts : Sections) (lines : List (List Char)) : Prop :=
  ∃ opening trail, lines = opening ++ parts.raster ++ trail ∧
    (∀ line ∈ opening, isBlank line = true ∨ isHeaderLine line = true) ∧
    (∀ line ∈ trail, isBlank line = true) ∧
    parts.header = opening.filter isHeaderLine ∧
    (∀ line ∈ parts.raster.head?, isBlank line = false ∧ isHeaderLine line = false) ∧
    ∀ line ∈ parts.raster.getLast?, isBlank line = false

theorem divide_sectionsOfLines (lines : List (List Char)) :
    (sectionsOfLines lines).Divide lines := by
  have hsplit : lines.rdropWhile isBlank ++ lines.rtakeWhile isBlank = lines :=
    List.rdropWhile_append_rtakeWhile
  refine ⟨(lines.rdropWhile isBlank).takeWhile isOpening, lines.rtakeWhile isBlank, ?_, ?_,
    fun _ hline ↦ List.mem_rtakeWhile_imp hline, rfl, ?_, isBlank_getLast?_raster lines⟩
  · conv_lhs => rw [← hsplit]
    rw [sectionsOfLines_eq, List.takeWhile_append_dropWhile]
  · intro line hline
    have hopening : isOpening line = true := List.mem_takeWhile_imp hline
    rw [isOpening, Bool.or_eq_true] at hopening
    exact hopening.symm
  · intro line hline
    exact (Bool.or_eq_false_iff.mp (isOpening_head?_raster lines line hline)).symm

/-- Blank lines behind a text belong to none of its sections. -/
theorem sections_append_blank {text tail : List Char}
    (htail : ∀ line ∈ lines tail, isBlank line = true) :
    sections (text ++ '\n' :: tail) = sections text := by
  rw [sections, sections, lines_append_cons, sectionsOfLines_eq, sectionsOfLines_eq,
    rdropWhile_isBlank_append htail]

/-! ### Reading -/

theorem parse_congr {text other : List Char} (hsections : sections other = sections text)
    (path : Option Path) : parse other path = parse text path := by
  unfold parse
  rw [hsections]

/-- The lines of a text are divided into the lines before the raster, of which the header is made,
the raster, and blank lines. What is read is the same if blank lines are put behind a text, and if
carriage returns are put before all its line feeds where no line ends with one. -/
theorem sections_loseNothing (text : List Char) :
    AreLinesOf (lines text) text ∧ (sections text).Divide (lines text) ∧
      (∀ path tail, (∀ line ∈ lines tail, isBlank line = true) →
        parse (text ++ '\n' :: tail) path = parse text path) ∧
      ((∀ piece ∈ text.splitOn '\n', piece.getLast? ≠ some '\r') →
        ∀ path, parse (withReturns text) path = parse text path) := by
  refine ⟨areLinesOf_lines text, divide_sectionsOfLines (lines text), fun path tail htail ↦ ?_,
    fun hfree path ↦ ?_⟩
  · exact parse_congr (sections_append_blank htail) path
  · refine parse_congr ?_ path
    rw [sections, sections, lines_withReturns hfree]

/-- A bold glyph whose raster has a blank row, a row that begins as a header line does, and no line
feed at the end. -/
def interrupted : String :=
  "# A\n \n# weight: bold\n\nX.\n \n#X\n.X"

theorem sections_loseNothing_interrupted :
    (∀ line ∈ lines " \n\t\r\n".toList, isBlank line = true) ∧
      (∀ piece ∈ interrupted.toList.splitOn '\n', piece.getLast? ≠ some '\r') ∧
      AreLinesOf (lines interrupted.toList) interrupted.toList ∧
      (sections interrupted.toList).Divide (lines interrupted.toList) ∧
      (∀ path, parse (interrupted.toList ++ '\n' :: " \n\t\r\n".toList) path =
        parse interrupted.toList path) ∧
      ∀ path, parse (withReturns interrupted.toList) path = parse interrupted.toList path := by
  have htail : ∀ line ∈ lines " \n\t\r\n".toList, isBlank line = true := by decide
  have hfree : ∀ piece ∈ interrupted.toList.splitOn '\n', piece.getLast? ≠ some '\r' := by decide
  obtain ⟨hlines, hdivide, hblank, hreturns⟩ := sections_loseNothing interrupted.toList
  exact ⟨htail, hfree, hlines, hdivide, fun path ↦ hblank path _ htail, hreturns hfree⟩

end PixelFont.GlyphFile
