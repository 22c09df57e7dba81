import PixelFont.Path

/-!
Arguments of a command line. An option is named by two hyphens and a word or by one hyphen and a
letter; some options take a value, which is joined to the name or stands in the next argument.
Options of one letter may be joined, and two hyphens alone end the options. What is no option is
an operand. Options may stand between operands, or else the first operand ends them.
-/

set_option autoImplicit false

namespace PixelFont.Command

/-- An option of some command. -/
inductive OptionName where
  | version
  | help
  | config
  | logFile
  | logLevel
  | quiet
  | output
  | workers
  deriving DecidableEq, Repr

namespace OptionName

/-- The word of an option. -/
def word : OptionName → String
  | version => "version"
  | help => "help"
  | config => "config"
  | logFile => "log-file"
  | logLevel => "log-level"
  | quiet => "quiet"
  | output => "output"
  | workers => "workers"

/-- The letter of an option. -/
def letter? : OptionName → Option Char
  | version => some 'V'
  | help => none
  | config => some 'c'
  | logFile => none
  | logLevel => none
  | quiet => some 'q'
  | output => some 'o'
  | workers => some 'j'

/-- Whether an option takes a value. -/
def takesValue : OptionName → Bool
  | version => false
  | help => false
  | quiet => false
  | _ => true

end OptionName

/-- An option as given, with its value if it takes one. -/
structure GivenOption where
  name : OptionName
  value : Option String := none
  deriving DecidableEq, Repr

/-- The options that an argument names, of which the last may wait for a value in the next
argument. -/
structure ArgumentOptions where
  given : List GivenOption
  waiting : Option OptionName := none
  deriving DecidableEq, Repr

/-- What the arguments give: the options in order and the operands, and whether the options were
ended by two hyphens is forgotten. -/
structure Arguments where
  options : List GivenOption := []
  operands : List String := []
  deriving DecidableEq, Repr

namespace Arguments

/-- The options of the letters of an argument, unless some letter names none. -/
def ofLetters (allowed : List OptionName) : List Char → Option ArgumentOptions
  | [] => some ⟨[], none⟩
  | c :: letters =>
    match allowed.find? fun name ↦ name.letter? == some c with
    | none => none
    | some name =>
      if name.takesValue then
        if letters.isEmpty then some ⟨[], some name⟩
        else some ⟨[⟨name, some (String.ofList letters)⟩], none⟩
      else
        (ofLetters allowed letters).map fun rest ↦ { rest with given := ⟨name, none⟩ :: rest.given }

/-- The option of a word with the value joined to it, if there is one. -/
def ofWord (name : OptionName) (joined : Option String) : Option ArgumentOptions :=
  match name.takesValue, joined with
  | true, some value => some ⟨[⟨name, some value⟩], none⟩
  | true, none => some ⟨[], some name⟩
  | false, some _ => none
  | false, none => some ⟨[⟨name, none⟩], none⟩

/-- The value joined to the word of an argument by an equals sign. -/
def joinedValue? (argument : List Char) : Option String :=
  match argument.dropWhile (· != '=') with
  | _ :: value => some (String.ofList value)
  | [] => none

/-- The options of an argument that begins with a hyphen, unless it names one that is not
allowed. -/
def ofArgument (allowed : List OptionName) (argument : List Char) : Option ArgumentOptions :=
  let stem := String.ofList (argument.takeWhile (· != '='))
  match allowed.find? fun name ↦ "--" ++ name.word == stem with
  | some name => ofWord name (joinedValue? argument)
  | none =>
    match argument with
    | '-' :: '-' :: _ => none
    | _ => ofLetters allowed (argument.drop 1)

/-- Whether an argument is an option. -/
def isOption (argument : String) : Bool :=
  match argument.toList with
  | '-' :: _ :: _ => true
  | _ => false

/-- The arguments with further options before them. -/
def withOptions (given : List GivenOption) (arguments : Arguments) : Arguments :=
  { arguments with options := given ++ arguments.options }

/-- The options and operands of some arguments, the first of which may be the value that an option
waits for. Nothing is read where an option is not allowed, lacks its value, or has one that it
does not take. -/
def read (allowed : List OptionName) (interspersed : Bool) :
    Option OptionName → List String → Option Arguments
  | none, [] => some {}
  | some _, [] => none
  | some name, value :: arguments =>
    (read allowed interspersed none arguments).map (withOptions [⟨name, some value⟩])
  | none, argument :: arguments =>
    if argument = "--" then some ⟨[], arguments⟩
    else if isOption argument then
      match ofArgument allowed argument.toList with
      | none => none
      | some options =>
        (read allowed interspersed options.waiting arguments).map (withOptions options.given)
    else if interspersed then
      (read allowed interspersed none arguments).map fun rest ↦
        { rest with operands := argument :: rest.operands }
    else some ⟨[], argument :: arguments⟩

/-- Whether an option is given. -/
def has (arguments : Arguments) (name : OptionName) : Bool :=
  arguments.options.any (·.name == name)

/-- The value of an option, the last one where several are given. -/
def value? (arguments : Arguments) (name : OptionName) : Option String :=
  (arguments.options.reverse.find? (·.name == name)).bind GivenOption.value

end Arguments

end PixelFont.Command
