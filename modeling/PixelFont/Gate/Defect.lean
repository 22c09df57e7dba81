import PixelFont.Glyph.Basic
import PixelFont.Report
import PixelFont.Text.Hexadecimal
import PixelFont.Text.Printable

/-!
Defects of a corpus. Every defect has a severity and a wording; all but two are errors.
-/

set_option autoImplicit false

namespace PixelFont

open Text

/-- A defect of a corpus. Rows are counted from one. -/
inductive Defect where
  /-- A file was rejected for the given reason. -/
  | unreadable (reason : String)
  | ligaturesDisabled
  | height (rows expected : Nat)
  | width (columns expected : Nat)
  /-- The width of a ligature is zero or no multiple of that of a character. -/
  | ligatureWidth (columns base : Nat)
  | componentWidth (columns expected components : Nat)
  | rowWidth (row columns expected : Nat)
  | characters (row : Nat) (line : String)
  | codepointRange (codepoint : Int)
  | surrogate (codepoint : Int)
  | noCodepoint
  | noComponents
  | sharedCodepoint (weight : Weight) (codepoint : Int)
  | sharedLigatureLabel (weight : Weight) (label : String)
  | sharedLabel (weight : Weight) (label : String) (codepoints : List Int)
  | missingGlyph (codepoint : Nat)
  | unknownComponents (labels : List String)
  deriving DecidableEq, Repr

namespace Defect

/-- Whether a defect keeps a font from being built. -/
def severity : Defect → Severity
  | ligaturesDisabled => .warning
  | unknownComponents _ => .warning
  | _ => .error

/-- A codepoint as messages show it. -/
def codepointText (codepoint : Int) : String :=
  "U+" ++ Hexadecimal.padded 4 codepoint

/-- The character of a codepoint as a message shows it, if it is printable and no space. -/
def characterText (codepoint : Nat) : String :=
  if 0x20 < codepoint ∧ isPrintableCode codepoint then
    " '" ++ String.ofList [Char.ofNat codepoint] ++ "'"
  else ""

/-- The wording of a defect. -/
def message : Defect → String
  | unreadable reason => "Could not parse file: " ++ reason
  | ligaturesDisabled => "Ligature support is disabled; glyph skipped."
  | height rows expected => s!"Grid has {rows} rows, expected {expected}."
  | width columns expected => s!"Grid width is {columns}, expected {expected}."
  | ligatureWidth columns base =>
    s!"Ligature grid width is {columns}, expected a positive multiple of {base}."
  | componentWidth columns expected components =>
    s!"Ligature grid width is {columns}, expected {expected} for {components} components."
  | rowWidth row columns expected => s!"Row {row} has {columns} columns, expected {expected}."
  | characters row line =>
    "Row " ++ toString row ++ " contains invalid characters. Only '.' and 'X' are allowed in " ++
      "the grid. Got: \"" ++ line ++ "\""
  | codepointRange codepoint =>
    "Invalid Unicode codepoint " ++
      (if 0 ≤ codepoint then codepointText codepoint else toString codepoint) ++
      ". Must be in range U+0000 to U+10FFFF."
  | surrogate codepoint =>
    "Codepoint " ++ codepointText codepoint ++
      " is in the surrogate range (U+D800-U+DFFF) and is not a valid Unicode scalar value."
  | noCodepoint => "Glyph has no codepoint in its header or filename."
  | noComponents => "Ligature declares no components."
  | sharedCodepoint weight codepoint =>
    "Duplicate " ++ weight.name ++ " codepoint " ++ codepointText codepoint ++
      " found in multiple files."
  | sharedLigatureLabel weight label =>
    "Duplicate " ++ weight.name ++ " ligature label '" ++ label ++ "' found in multiple files."
  | sharedLabel weight label codepoints =>
    "Duplicate " ++ weight.name ++ " label '" ++ label ++ "' used by " ++
      ", ".intercalate (codepoints.map codepointText) ++
      ". Ligature components cannot tell them apart."
  | missingGlyph codepoint =>
    "Missing required glyph: " ++ codepointText codepoint ++ characterText codepoint ++ "."
  | unknownComponents labels =>
    "Ligature components not found: " ++ ", ".intercalate labels ++
      ". The ligature will not be registered."

end Defect

/-- A defect with the files it concerns. -/
structure Finding where
  source : String
  defect : Defect
  deriving DecidableEq, Repr

/-- The issue that reports a finding. -/
def Finding.issue (finding : Finding) : Issue :=
  ⟨finding.source, finding.defect.message, finding.defect.severity⟩

end PixelFont
