import PixelFont.Text.Hexadecimal
import PixelFont.Value

/-!
Reading of settings that finds every fault. A reading gives a value or the faults found, each
with the place where it stands; readings combined give the faults of all of them in order.
-/

set_option autoImplicit false

namespace PixelFont

/-- A step from a value to a part of it. -/
inductive Step where
  | key (name : String)
  | index (number : Nat)
  deriving DecidableEq, Repr

/-- A step in text. -/
def Step.text : Step → String
  | key name => name
  | index number => toString number

/-- What is wrong with a value in settings. -/
inductive SettingsFault where
  | notRecord (model : String)
  | notInteger
  | unreadableInteger
  | oversizedInteger
  | fractionalInteger
  | infiniteInteger
  | below (bound : Int)
  | above (bound : Int)
  | notText
  | emptyText
  | badVersion
  | notFlag
  | unreadableFlag
  | notList
  | notPath
  | reversedRange (start stop : Nat)
  | baselineOutside (row height : Nat)
  deriving DecidableEq, Repr

namespace SettingsFault

/-- The name of the kind of a fault. -/
def kind : SettingsFault → String
  | notRecord _ => "model_type"
  | notInteger => "int_type"
  | unreadableInteger => "int_parsing"
  | oversizedInteger => "int_parsing_size"
  | fractionalInteger => "int_from_float"
  | infiniteInteger => "finite_number"
  | below _ => "greater_than_equal"
  | above _ => "less_than_equal"
  | notText => "string_type"
  | emptyText => "string_too_short"
  | badVersion => "string_pattern_mismatch"
  | notFlag => "bool_type"
  | unreadableFlag => "bool_parsing"
  | notList => "list_type"
  | notPath => "path_type"
  | reversedRange .. => "value_error"
  | baselineOutside .. => "value_error"

/-- A codepoint as a fault shows it. -/
def codeText (code : Nat) : String :=
  "0x" ++ Text.Hexadecimal.paddedSmall 1 code

/-- The wording of a fault. -/
def message : SettingsFault → String
  | notRecord model => "Input should be a valid dictionary or instance of " ++ model
  | notInteger => "Input should be a valid integer"
  | unreadableInteger => "Input should be a valid integer, unable to parse string as an integer"
  | oversizedInteger => "Unable to parse input string as an integer, exceeded maximum size"
  | fractionalInteger =>
    "Input should be a valid integer, got a number with a fractional part"
  | infiniteInteger => "Input should be a finite number"
  | below bound => "Input should be greater than or equal to " ++ toString bound
  | above bound => "Input should be less than or equal to " ++ toString bound
  | notText => "Input should be a valid string"
  | emptyText => "String should have at least 1 character"
  | badVersion => "String should match pattern '^\\d+\\.\\d+$'"
  | notFlag => "Input should be a valid boolean"
  | unreadableFlag => "Input should be a valid boolean, unable to interpret input"
  | notList => "Input should be a valid list"
  | notPath => "Input is not a valid path for <class 'pathlib.Path'>"
  | reversedRange start stop =>
    "Value error, required_start (" ++ codeText start ++ ") is after required_end (" ++
      codeText stop ++ ")"
  | baselineOutside row height =>
    "Value error, baseline_row " ++ toString row ++ " lies outside a " ++ toString height ++
      "-row grid"

end SettingsFault

/-- A fault with the place where it stands. -/
structure SettingsIssue where
  place : List Step
  fault : SettingsFault
  deriving DecidableEq, Repr

namespace SettingsIssue

/-- The issue as seen from one step further out. -/
def inside (step : Step) (issue : SettingsIssue) : SettingsIssue :=
  { issue with place := step :: issue.place }

/-- An issue on one line. -/
def text (issue : SettingsIssue) : String :=
  ".".intercalate (issue.place.map Step.text) ++ ": " ++ issue.fault.message

end SettingsIssue

/-- What a reading gives: a value, or the issues found. -/
inductive Checked (α : Type) where
  | value (content : α)
  | issues (first : SettingsIssue) (others : List SettingsIssue)
  deriving Repr

namespace Checked

variable {α β : Type}

/-- A reading that finds one fault, where it is. -/
def fail (fault : SettingsFault) : Checked α :=
  issues ⟨[], fault⟩ []

/-- A reading with its content changed. -/
def map (f : α → β) : Checked α → Checked β
  | value content => value (f content)
  | issues first others => issues first others

/-- Two readings in one; the issues of the first come first. -/
def apply (function : Checked (α → β)) (argument : Checked α) : Checked β :=
  match function, argument with
  | value f, value content => value (f content)
  | value _, issues first others => issues first others
  | issues first others, value _ => issues first others
  | issues first others, issues next more => issues first (others ++ next :: more)

instance : Applicative Checked where
  pure := value
  map := map
  seq function argument := apply function (argument ())

/-- A reading of what another one gave, which takes place if that one found no fault. -/
def andThen (reading : Checked α) (next : α → Checked β) : Checked β :=
  match reading with
  | value content => next content
  | issues first others => issues first others

/-- A reading of a part, its issues being placed by the step to that part. -/
def inside (step : Step) : Checked α → Checked α
  | value content => value content
  | issues first others => issues (first.inside step) (others.map (·.inside step))

/-- A reading of every item of a list, counted from the given number. -/
def items (read : Value → Checked α) : Nat → List Value → Checked (List α)
  | _, [] => value []
  | number, item :: rest =>
    apply (map List.cons ((read item).inside (.index number))) (items read (number + 1) rest)

/-- The issues of a reading. -/
def allIssues : Checked α → List SettingsIssue
  | value _ => []
  | issues first others => first :: others

end Checked

end PixelFont
