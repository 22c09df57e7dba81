import PixelFont.Glyph.Basic
import PixelFont.Number.Binary64

/-!
Statistics of a build: how many glyphs were read, compiled, derived and found empty, what failed,
and which files were written.
-/

set_option autoImplicit false

namespace PixelFont

open Number

/-- The files of the font of one weight. -/
structure WeightOutput where
  weight : Weight
  glyphCount : Nat
  trueType : Option Path
  compressed : Option Path
  deriving DecidableEq, Repr

/-- The statistics of a build. -/
structure BuildStatistics where
  parsed : Nat := 0
  compiled : Nat := 0
  derived : Nat := 0
  empty : Nat := 0
  failed : Nat := 0
  rectangles : Int := 0
  substitutions : Nat := 0
  /-- The labels of the glyphs that failed, with the reasons. -/
  failures : List (String × String) := []
  /-- The milliseconds that each compiled glyph took. -/
  durations : List Binary64 := []
  outputs : List WeightOutput := []
  deriving DecidableEq, Repr

namespace BuildStatistics

/-- The statistics with one more glyph compiled. -/
def addCompiled (stats : BuildStatistics) (rectangles : Int) (duration : Binary64)
    (derived : Bool) : BuildStatistics :=
  { stats with
    compiled := stats.compiled + 1
    derived := if derived then stats.derived + 1 else stats.derived
    empty := if rectangles = 0 then stats.empty + 1 else stats.empty
    rectangles := stats.rectangles + rectangles
    durations := stats.durations ++ [duration] }

/-- The statistics with one more glyph failed. -/
def addFailed (stats : BuildStatistics) (label error : String) : BuildStatistics :=
  { stats with
    failed := stats.failed + 1
    failures := stats.failures ++ [(label, error)] }

/-- The mean of the durations, if there is one. -/
def meanDuration? (stats : BuildStatistics) : Option Binary64 :=
  if stats.durations.isEmpty then none
  else
    some ((stats.durations.foldl Binary64.add (Binary64.ofInt 0)).divNat stats.durations.length)

end BuildStatistics

end PixelFont
