import PixelFont.GlyphFile.Access
import PixelFont.Json.Reader
import PixelFont.Settings.Record

/-!
Settings files. A file holds a record of settings in JSON. Unless it says otherwise, relative
paths in it are seen from the directory of the file. The first thing that is wrong is reported.
-/

set_option autoImplicit false

namespace PixelFont

/-- How a configuration is refused, with the file or the part that is at fault. -/
def configurationMessage (source reason : String) : String :=
  "Invalid configuration '" ++ source ++ "': " ++ reason

/-- Why a file gives no settings. -/
inductive SettingsFileFault where
  | file (fault : FileFault)
  | encoding (fault : Text.Utf8.Fault)
  | notJson (error : Json.SyntaxError)
  /-- The text goes beyond the limits of the reader. -/
  | beyond (fault : Json.LimitFault)
  | notRecord
  | invalid (issue : SettingsIssue)
  deriving DecidableEq, Repr

/-- The wording of a fault. -/
def SettingsFileFault.reason : SettingsFileFault → String
  | .file fault => fault.message
  | .encoding fault => fault.message
  | .notJson error => "not valid JSON (" ++ error.message ++ ")"
  | .beyond fault => fault.message
  | .notRecord => "top-level value must be an object"
  | .invalid issue => issue.text

namespace Settings

/-- A text with every line ended by a line feed, where a carriage return may end one, or stand
before a line feed that does. -/
def unifyLines : List Char → List Char
  | [] => []
  | '\r' :: '\n' :: text => '\n' :: unifyLines text
  | c :: text => (if c = '\r' then '\n' else c) :: unifyLines text

/-- The fields of a record with the directory of the file as project root, unless they give
one. -/
def withProjectRoot (path : Path) (fields : List (String × Value)) : List (String × Value) :=
  match SettingsKey.projectRoot.find? fields with
  | some _ => fields
  | none => Value.assign fields SettingsKey.projectRoot.capitals (.text path.parent.toText)

/-- The settings that a value in a file gives. -/
def ofFileValue (path : Path) (value : Value) : Except SettingsFileFault Settings :=
  match value.asRecord? with
  | none => .error .notRecord
  | some fields =>
    match ofFields (withProjectRoot path fields) with
    | .issues first _ => .error (.invalid first)
    | .value settings => .ok settings

/-- The settings that the text of a file gives. -/
def ofFileText (limits : Json.Limits) (path : Path) (text : List Char) :
    Except SettingsFileFault Settings :=
  match Json.read limits (unifyLines text) with
  | .error (.malformed error) => .error (.notJson error)
  | .error (.beyond fault) => .error (.beyond fault)
  | .ok value => ofFileValue path value

/-- The settings that the file of a path gives to a reader with some limits. -/
def load (limits : Json.Limits) (tree : FileTree) (path : Path) :
    Except SettingsFileFault Settings :=
  match GlyphFile.readText tree path with
  | .error (.file fault) => .error (.file fault)
  | .error (.encoding fault) => .error (.encoding fault)
  | .ok text => ofFileText limits path text

end Settings

end PixelFont
