import PixelFont.Ligature.Feature
import PixelFont.Main
import PixelFont.Proofs.Grouping
import PixelFont.Proofs.Raster.Scan
import PixelFont.Proofs.Raster.Stacking
import PixelFont.Proofs.Raster.ExactCover
import PixelFont.Proofs.Raster.MaximalRuns
import PixelFont.Proofs.Raster.CanonicalCover
import PixelFont.Proofs.Raster.Rearrangement
import PixelFont.Proofs.Gate.Drawing
import PixelFont.Proofs.Gate.Verdict
import PixelFont.Proofs.Glyph.Naming
import PixelFont.Proofs.Font.Clash
import PixelFont.Proofs.Glyph.Selection
import PixelFont.Proofs.Path
import PixelFont.Proofs.Build.Workers
import PixelFont.Proofs.Gate.Soundness
import PixelFont.Proofs.Text.Trimming
import PixelFont.Proofs.GlyphFile.HeaderLine
import PixelFont.Proofs.GlyphFile.Sections
import PixelFont.Proofs.GlyphFile.Canonical
import PixelFont.Proofs.GlyphFile.RoundTrip
import PixelFont.Proofs.Number.Exactness
import PixelFont.Proofs.Raster.Area
import PixelFont.Proofs.Outline.Area
import PixelFont.Proofs.Outline.Faithfulness
import PixelFont.Proofs.Gate.Compilation
import PixelFont.Proofs.Gate.Ligatures
import PixelFont.Proofs.Gate.Components
import PixelFont.Proofs.Ligature.Resolution
import PixelFont.Proofs.Ligature.Outcome
import PixelFont.Proofs.Gate.Advance
import PixelFont.Proofs.Build.Session
import PixelFont.Proofs.Gate.Coverage
import PixelFont.Proofs.Gate.DisabledLigatures
import PixelFont.Proofs.Corpus.Reading
import PixelFont.Proofs.Gate.Refusal
import PixelFont.Proofs.Outline.Region
import PixelFont.Proofs.Gate.Frame
import PixelFont.Proofs.Raster.Widening
import PixelFont.Proofs.Raster.Padding
import PixelFont.Proofs.Raster.Drawing
import PixelFont.Proofs.Build.Emboldening
import PixelFont.Proofs.Text.Utf8
import PixelFont.Proofs.Settings.Loading
import PixelFont.Proofs.GlyphFile.Acceptance
import PixelFont.Proofs.GlyphFile.Name
import PixelFont.Proofs.GlyphFile.Rewriting
import PixelFont.Proofs.Build.Handover
import PixelFont.Proofs.Build.Runs
import PixelFont.Proofs.Build.Counting
import PixelFont.Proofs.Gate.CharacterSet
import PixelFont.Proofs.Gate.Satisfiability
import PixelFont.Proofs.Text.Ordering
import PixelFont.Proofs.FileTree.Directory
import PixelFont.Proofs.GlyphFile.Filing
import PixelFont.Proofs.Corpus.Writing
import PixelFont.Proofs.GlyphSet.Patterns
import PixelFont.Proofs.Number.Range
import PixelFont.Proofs.GlyphSet.Filing
import PixelFont.Proofs.GlyphSet.Labels
import PixelFont.Proofs.GlyphSet.Eighths
import PixelFont.Proofs.GlyphSet.Halves
import PixelFont.Proofs.Glyph.Collision
import PixelFont.Proofs.Ligature.LongestFirst
import PixelFont.Proofs.GlyphFile.Splitting
import PixelFont.Proofs.GlyphFile.LineForms
import PixelFont.Proofs.GlyphFile.HeaderCollection
import PixelFont.Proofs.Gate.Sharing
import PixelFont.Proofs.GlyphFile.Convention
import PixelFont.Proofs.GlyphFile.Outcome
import PixelFont.Proofs.FileTree.Relisting
import PixelFont.Proofs.Corpus.Order
import PixelFont.Proofs.Gate.Reordering
import PixelFont.Proofs.Gate.Derivation
import PixelFont.Proofs.Outline.TightBox
import PixelFont.Proofs.Number.Order
import PixelFont.Proofs.Raster.RowScan
import PixelFont.Proofs.Outline.Shoelace
import PixelFont.Proofs.Settings.Rereading
import PixelFont.Proofs.Json.DistinctKeys
import PixelFont.Proofs.Settings.Keys
import PixelFont.Proofs.Settings.Spelling
import PixelFont.Proofs.Settings.Respelling
