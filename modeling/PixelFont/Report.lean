/-!
Reports on a corpus: problems in the order in which they were found. An error keeps a font from
being built, a warning does not.
-/

set_option autoImplicit false

namespace PixelFont

/-- Whether a problem keeps a font from being built. -/
inductive Severity where
  | error
  | warning
  deriving DecidableEq, Repr

namespace Severity

/-- The name of a severity. -/
def name : Severity → String
  | error => "error"
  | warning => "warning"

/-- The severity of a name. -/
def ofName? : String → Option Severity
  | "error" => some error
  | "warning" => some warning
  | _ => none

end Severity

/-- A problem with the files it concerns. -/
structure Issue where
  source : String
  message : String
  severity : Severity := .error
  deriving DecidableEq, Repr

/-- A problem on one line. -/
def Issue.text (issue : Issue) : String :=
  "[" ++ issue.source ++ "] " ++ issue.message

/-- Problems in the order in which they were found. -/
structure Report where
  issues : List Issue := []
  deriving DecidableEq, Repr

namespace Report

/-- The report with further problems. -/
def extend (report : Report) (issues : List Issue) : Report :=
  ⟨report.issues ++ issues⟩

/-- The errors of a report. -/
def errors (report : Report) : List Issue :=
  report.issues.filter (·.severity == .error)

/-- The warnings of a report. -/
def warnings (report : Report) : List Issue :=
  report.issues.filter (·.severity == .warning)

/-- Whether a report has no error. -/
def isValid (report : Report) : Bool :=
  report.errors.isEmpty

/-- How a build that the report keeps from going on is refused. -/
def refusal (report : Report) : String :=
  "Glyph corpus failed validation with " ++ toString report.errors.length ++ " error(s)"

end Report

end PixelFont
