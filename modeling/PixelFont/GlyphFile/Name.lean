import PixelFont.Glyph.Basic
import PixelFont.Text.Hexadecimal

/-!
Names of glyph files. A name tells the label, and the codepoint of a glyph that has one:
`U+0041_A.glyph`, `LIG_fi.glyph`. A weight other than regular is named before the ending. A file
that does not say its label or codepoint takes them from its name.
-/

set_option autoImplicit false

namespace PixelFont

open Text

namespace GlyphFile

/-- The ending of the names of glyph files. -/
def ending : String := ".glyph"

/-- What the name of a file for a ligature or an unencoded glyph begins with. -/
def ligatureOpening : String := "LIG_"

/-- What the name of a file for an encoded glyph begins with. -/
def codepointOpening : String := "U+"

/-- A text without an ending, if it has it. -/
def dropEnding (ending text : List Char) : List Char :=
  if ending.isSuffixOf text then text.take (text.length - ending.length) else text

/-- A text without an opening, if it has it. -/
def dropOpening? (opening text : List Char) : Option (List Char) :=
  if opening.isPrefixOf text then some (text.drop opening.length) else none

/-- A name without the ending of glyph files. -/
def stem (name : String) : List Char :=
  dropEnding ending.toList name.toList

/-- The digits of the codepoint at the start of a stem and what follows the low line after
them. -/
def splitCodepoint? (stem : List Char) : Option (List Char × List Char) :=
  (dropOpening? codepointOpening.toList stem).bind fun rest ↦
    match rest.dropWhile Hexadecimal.isDigit with
    | '_' :: label =>
      let numeral := rest.takeWhile Hexadecimal.isDigit
      if numeral.isEmpty then none else some (numeral, label)
    | _ => none

/-- The label that a stem tells. -/
def label (stem : List Char) : String :=
  String.ofList <|
    match splitCodepoint? stem with
    | some (_, label) => label
    | none => (dropOpening? ligatureOpening.toList stem).getD stem

/-- The codepoint that a stem tells, of four to six digits. -/
def codepoint? (stem : List Char) : Option Nat :=
  (splitCodepoint? stem).bind fun (numeral, _) ↦
    if 4 ≤ numeral.length ∧ numeral.length ≤ 6 then some (Hexadecimal.value numeral) else none

/-- What the name of a file says of a weight. -/
def weightMark : Weight → String
  | .regular => ""
  | .bold => "." ++ Weight.bold.name

end GlyphFile

namespace Glyph

/-- What the name of a glyph's file begins with. -/
def fileOpening (glyph : Glyph) : String :=
  match glyph.isLigature, glyph.codepoint with
  | false, some codepoint => GlyphFile.codepointOpening ++ Hexadecimal.padded 4 codepoint ++ "_"
  | _, _ => GlyphFile.ligatureOpening

/-- The conventional name of a glyph's file. -/
def fileName (glyph : Glyph) : String :=
  glyph.fileOpening ++ glyph.label ++ GlyphFile.weightMark glyph.weight ++ GlyphFile.ending

end Glyph

end PixelFont
