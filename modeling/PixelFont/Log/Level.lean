/-!
Levels of a log. An entry is written if its level is at or above that asked for, which is named in
any case of letters.
-/

set_option autoImplicit false

namespace PixelFont

/-- The level of a log entry. -/
inductive LogLevel where
  | debug
  | info
  | warning
  | error
  deriving DecidableEq, Repr

namespace LogLevel

/-- The number by which levels are compared. -/
def number : LogLevel → Nat
  | debug => 10
  | info => 20
  | warning => 30
  | error => 40

/-- The name of a level. -/
def name : LogLevel → String
  | debug => "DEBUG"
  | info => "INFO"
  | warning => "WARNING"
  | error => "ERROR"

/-- The name of a level in small letters. -/
def smallName : LogLevel → String
  | debug => "debug"
  | info => "info"
  | warning => "warning"
  | error => "error"

end LogLevel

/-- Why a name stands for no level. -/
inductive LevelFault where
  | unknown
  /-- The name is that of a text that is no level. -/
  | text (content : String)
  /-- The name is that of something that can be no level. -/
  | unfit
  deriving DecidableEq, Repr

/-- The wording of a fault. -/
def LevelFault.message : LevelFault → String
  | .unknown => "unknown log level"
  | .text content => "Unknown level: '" ++ content ++ "'"
  | .unfit => "log level is no number"

namespace LogLevel

/-- A character in the capital form that decides on levels. -/
def capital (c : Char) : Char :=
  if c = '\u0131' then 'I' else if c = '\u017f' then 'S' else c.toUpper

/-- The number from which on entries are written, by the name of a level. -/
def threshold (name : String) : Except LevelFault Nat :=
  match String.ofList (name.toList.map capital) with
  | "NOTSET" => .ok 0
  | "DEBUG" => .ok 10
  | "INFO" => .ok 20
  | "WARN" => .ok 30
  | "WARNING" => .ok 30
  | "ERROR" => .ok 40
  | "CRITICAL" => .ok 50
  | "FATAL" => .ok 50
  | "BASIC_FORMAT" => .error (.text "%(levelname)s:%(name)s:%(message)s")
  | "_STYLES" => .error .unfit
  | _ => .error .unknown

end LogLevel

end PixelFont
