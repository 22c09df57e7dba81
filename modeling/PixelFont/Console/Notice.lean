import PixelFont.Build.Statistics
import PixelFont.Console.Amount
import PixelFont.Console.Table
import PixelFont.Report

/-!
Notices: what the command line tells. A notice is shown on lines of its own; what is measured
outside of the work told of, which is the time that it took and the sizes of the files written,
is given in words beside it.
-/

set_option autoImplicit false

namespace PixelFont

/-- The name under which the command line presents itself. -/
def programName : String := "Gridfont"

/-- The version of the command line. -/
def programVersion : String := "0.1.0"

/-- Something that the command line tells. -/
inductive Notice where
  | version (version : String)
  | usage
  /-- The head of what follows. -/
  | header (version : String)
  | step (message : String)
  /-- The directories read, with the numbers of glyphs and of files rejected. -/
  | corpus (directories : List Path) (glyphs rejections : Nat)
  | report (report : Report)
  | error (message : String) (details : Option String)
  | success (statistics : BuildStatistics)
  | generated (set : String) (count : Nat) (directory : Path)
  | cancelled
  deriving DecidableEq, Repr

/-- What is measured, in words. -/
structure Measures where
  elapsed : String := Amount.duration (Number.Binary64.ofInt 0)
  size : Path → String := fun _ ↦ Amount.fileSize none
  average : Number.Binary64 → String := Amount.milliseconds

namespace Notice

/-- What stands between the parts of a line. -/
def separator : String := " · "

/-- What shows that something went well. -/
def doneMark : String := "✓"

/-- What shows that something failed. -/
def errorMark : String := "✗"

/-- What shows that something may be wrong. -/
def warningMark : String := "!"

/-- The mark of a severity. -/
def severityMark : Severity → String
  | .error => errorMark
  | .warning => warningMark

/-- The number of signs in the line under a header. -/
def ruleLength : Nat := 44

/-- A name with a version. -/
def versionText (version : String) : String :=
  programName ++ " v" ++ version

/-- The lines of a corpus that was read. -/
def corpusLines (directories : List Path) (glyphs rejections : Nat) : List String :=
  directories.flatMap (fun directory ↦ Console.lines ("  " ++ directory.toText)) ++
    ["  " ++ Amount.grouped glyphs ++ " glyphs" ++ separator ++ toString rejections ++
      " unreadable"]

/-- The row of a problem in the table of a report. -/
def issueRow (issue : Issue) : List String :=
  [severityMark issue.severity, issue.source, issue.message]

/-- The heading of the table of a report. -/
def reportHeading : List String := ["", "Source", "Problem"]

/-- The lines of a report, the errors before the warnings. -/
def reportLines (report : Report) : List String :=
  if report.issues.isEmpty then ["  " ++ doneMark ++ " No issues"]
  else
    Console.tableLines (reportHeading :: (report.errors ++ report.warnings).map issueRow) ++
      ["", "  " ++ toString report.errors.length ++ " errors" ++ separator ++
        toString report.warnings.length ++ " warnings"]

/-- The lines of an error. -/
def errorLines (message : String) (details : Option String) : List String :=
  Console.lines ("\n" ++ errorMark ++ " Error: " ++ Console.shielded message) ++
    match details with
    | some text => if text = "" then [] else Console.lines ("  " ++ Console.shielded text)
    | none => []

/-- The lines of a file that was to be written. -/
def outputLines (measures : Measures) : Option Path → List String
  | some path => Console.lines ("  " ++ path.toText ++ " (" ++ measures.size path ++ ")")
  | none => ["  None (" ++ Amount.notWritten ++ ")"]

/-- The lines of a build that went well. -/
def successLines (measures : Measures) (statistics : BuildStatistics) : List String :=
  ["", doneMark ++ " Complete in " ++ measures.elapsed] ++
    statistics.outputs.flatMap (fun output ↦
      outputLines measures output.trueType ++ outputLines measures output.compressed) ++
    ["  " ++ toString statistics.compiled ++ " glyphs" ++ separator ++
      toString statistics.derived ++ " derived" ++ separator ++
      toString statistics.rectangles ++ " rectangles" ++ separator ++
      toString statistics.substitutions ++ " ligatures"] ++
    match statistics.meanDuration? with
    | some mean => ["  " ++ measures.average mean ++ " avg per glyph"]
    | none => []

/-- How the command line is used. -/
def usageLines : List String := [
  "Usage: gridfont [--version] [--help] COMMAND [ARGUMENTS]",
  "",
  "  validate [DIRECTORY]...  check a glyph corpus and list every problem found",
  "  build [DIRECTORY]...     validate a glyph corpus and compile it into fonts",
  "  generate SET             write a generated glyph set as glyph files"]

/-- The lines of a notice before the spaces at their ends are removed. -/
def fullLines (measures : Measures) : Notice → List String
  | version number => Console.lines (versionText number)
  | usage => usageLines
  | header number =>
    Console.lines ("\n" ++ versionText number) ++
      [String.ofList (List.replicate ruleLength '─')]
  | step message => Console.lines ("\n▸ " ++ message)
  | corpus directories glyphs rejections => corpusLines directories glyphs rejections
  | report problems => reportLines problems
  | error message details => errorLines message details
  | success statistics => successLines measures statistics
  | generated set count directory =>
    Console.lines ("\n" ++ doneMark ++ " " ++ toString count ++ " " ++ set ++
      " glyphs written to " ++ directory.toText)
  | cancelled => ["", "· Cancelled", "  Fonts written before cancellation are kept"]

/-- The lines on which a notice is shown. -/
def lines (measures : Measures) (notice : Notice) : List String :=
  (notice.fullLines measures).map Console.trimEnd

end Notice

end PixelFont
