import PixelFont.Command.Argument
import PixelFont.Settings.Scalar

/-!
Invocations: what the arguments of a command line ask for. Options that apply to every command
come before the name of the command, those of the command after it. Asking for the version or for
help comes before all else, provided that the options can be read.
-/

set_option autoImplicit false

namespace PixelFont.Command

/-- What the options of a command change about the settings. -/
structure Overrides where
  /-- The file that the settings are read from. -/
  config : Option Path := none
  logFile : Option Path := none
  logLevel : Option String := none
  workers : Option Nat := none
  deriving DecidableEq, Repr

/-- What is asked for. -/
inductive Invocation where
  | version
  | help
  /-- To validate the corpus of some directories, or of those that the settings name. -/
  | validate (sources : List Path) (overrides : Overrides) (quiet : Bool)
  /-- To build fonts from some directories, or from those that the settings name. -/
  | build (sources : List Path) (output : Option Path) (overrides : Overrides) (quiet : Bool)
  /-- To write the glyphs of a set. -/
  | generate (set : String) (output : Option Path) (overrides : Overrides) (quiet : Bool)
  deriving DecidableEq, Repr

/-- Why arguments ask for nothing. -/
inductive Refusal where
  | usage
  /-- A path holds a character that no path can. -/
  | nulCharacter
  deriving DecidableEq, Repr

/-- A command. -/
inductive Name where
  | validate
  | build
  | generate
  deriving DecidableEq, Repr

namespace Name

/-- The word of a command. -/
def word : Name → String
  | validate => "validate"
  | build => "build"
  | generate => "generate"

/-- The command of a word. -/
def ofWord? (text : String) : Option Name :=
  [validate, build, generate].find? fun name ↦ name.word == text

/-- The options of a command. -/
def options : Name → List OptionName
  | validate => [.help, .config, .logFile, .logLevel, .quiet]
  | build => [.help, .config, .logFile, .logLevel, .quiet, .output, .workers]
  | generate => [.help, .config, .quiet, .output]

end Name

/-- The options that stand before the name of a command. -/
def leadingOptions : List OptionName := [.version, .help]

/-! ### Values of options -/

/-- The number of workers that a text gives, which is one at least. -/
def workers? (text : String) : Option Nat :=
  let count :=
    match Numeral.trim text.toList with
    | '+' :: digits => Numeral.digits? Text.isDecimalDigit digits
    | digits => Numeral.digits? Text.isDecimalDigit digits
  count.filter (0 < ·)

/-- Why a text can be no path. -/
def pathRefusal? (text : String) : Option Refusal :=
  if text.toList.contains '\x00' then some .nulCharacter else none

/-- Why a text can be no value of an option. -/
def valueRefusal? (name : OptionName) (text : String) : Option Refusal :=
  match name with
  | .config => pathRefusal? text
  | .logFile => pathRefusal? text
  | .output => pathRefusal? text
  | .workers => if (workers? text).isNone then some .usage else none
  | _ => none

namespace Arguments

/-- Why the value of some option is refused; options are looked at in the order given. -/
def refusal? (arguments : Arguments) : Option Refusal :=
  arguments.options.findSome? fun option ↦
    (arguments.value? option.name).bind (valueRefusal? option.name)

/-- The path that an option gives. -/
def path? (arguments : Arguments) (name : OptionName) : Option Path :=
  (arguments.value? name).map Path.ofString

/-- What the options change about the settings. -/
def overrides (arguments : Arguments) : Overrides where
  config := arguments.path? .config
  logFile := arguments.path? .logFile
  logLevel := arguments.value? .logLevel
  workers := (arguments.value? .workers).bind workers?

/-- The paths that the operands give. -/
def sources (arguments : Arguments) : List Path :=
  arguments.operands.map Path.ofString

end Arguments

namespace Invocation

/-- The invocation of a command on directories. -/
def onDirectories (arguments : Arguments) (invocation : List Path → Invocation) :
    Except Refusal Invocation :=
  match arguments.operands.findSome? pathRefusal? with
  | some refusal => .error refusal
  | none => .ok (invocation arguments.sources)

/-- The invocation of a command that acceptable options and operands give. -/
def ofAccepted (name : Name) (arguments : Arguments) : Except Refusal Invocation :=
  let overrides := arguments.overrides
  let quiet := arguments.has .quiet
  let output := arguments.path? .output
  match name with
  | .validate => onDirectories arguments fun sources ↦ .validate sources overrides quiet
  | .build => onDirectories arguments fun sources ↦ .build sources output overrides quiet
  | .generate =>
    match arguments.operands with
    | [set] => .ok (.generate set output overrides quiet)
    | _ => .error .usage

/-- The invocation of a command that the arguments after its name give. -/
def ofCommand (name : Name) (arguments : List String) : Except Refusal Invocation :=
  match Arguments.read name.options true none arguments with
  | none => .error .usage
  | some read =>
    if read.has .help then .ok .help
    else
      match read.refusal? with
      | some refusal => .error refusal
      | none => ofAccepted name read

/-- What the options before the name of a command ask for by themselves. -/
def ofLeading? (arguments : Arguments) : Option Invocation :=
  arguments.options.head?.map fun option ↦
    if option.name = .version then .version else .help

/-- The invocation that operands give, of which the first should name a command. Where it does not,
two hyphens having ended the options, the operands are read as options once more. -/
def ofOperands : List String → Except Refusal Invocation
  | [] => .error .usage
  | word :: arguments =>
    match Name.ofWord? word with
    | some name => ofCommand name arguments
    | none =>
      match (Arguments.read leadingOptions false none (word :: arguments)).bind ofLeading? with
      | some invocation => .ok invocation
      | none => .error .usage

/-- The invocation that the arguments of a command line give. -/
def ofArguments (arguments : List String) : Except Refusal Invocation :=
  match Arguments.read leadingOptions false none arguments with
  | none => .error .usage
  | some read =>
    match ofLeading? read with
    | some invocation => .ok invocation
    | none => ofOperands read.operands

end Invocation

end PixelFont.Command
