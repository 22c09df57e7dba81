import PixelFont.Build.Session
import PixelFont.Command.Invocation
import PixelFont.Console.Notice
import PixelFont.Corpus.Writer
import PixelFont.GlyphSet
import PixelFont.Settings.File

/-!
Runs of commands on a tree of files. A run tells notices, leaves the tree as it is afterwards, and
ends with a status or breaks off at a fault that no command expects. A corpus that does not pass
the gate, settings that cannot be read and files that cannot be written are expected: they are
told, and the status is one.
-/

set_option autoImplicit false

namespace PixelFont.Command

/-- Why a run breaks off. -/
inductive Fault where
  | file (fault : FileFault)
  /-- The settings file is not UTF-8. -/
  | encoding (fault : Text.Utf8.Fault)
  /-- The settings file goes beyond the limits of the reader. -/
  | json (fault : Json.LimitFault)
  | log (fault : LogFault)
  | build (fault : BuildFault)
  | eighths (error : EighthsError)
  deriving DecidableEq, Repr

/-- How a run ends. -/
inductive Ending where
  | status (code : Nat)
  | broken (fault : Fault)
  deriving DecidableEq, Repr

/-- The wording of a fault. -/
def Fault.message : Fault → String
  | .file fault => fault.message
  | .encoding fault => fault.message
  | .json fault => fault.message
  | .log (.file fault) => fault.message
  | .log (.level fault) => fault.message
  | .build fault => fault.message
  | .eighths error => error.message

/-- The status of an ending, which is one where a run breaks off. -/
def Ending.code : Ending → Nat
  | status code => code
  | broken _ => 1

/-- What a run gives. -/
structure Conclusion where
  notices : List Notice := []
  ending : Ending
  tree : FileTree
  logFile : Option Path := none
  /-- The events written to the log file. -/
  log : List LogEvent := []
  deriving Repr

namespace Conclusion

/-- A run that did what it was asked for. -/
def success : Ending := .status 0

/-- A run that told of an error. -/
def failure : Ending := .status 1

/-- A run that could not tell what it was asked for. -/
def misuse : Ending := .status 2

/-- The conclusion in a session. -/
def ofSession (session : Session) (notices : List Notice) (ending : Ending) : Conclusion :=
  ⟨notices, ending, session.tree, session.settings.log.file, session.log⟩

end Conclusion

/-- Notices that a quiet run does not tell. -/
def unlessQuiet (quiet : Bool) (notices : List Notice) : List Notice :=
  if quiet then [] else notices

/-- The notices at the beginning of a run. -/
def opening (quiet : Bool) (step : String) : List Notice :=
  unlessQuiet quiet [.header programVersion, .step step]

/-! ### Settings -/

namespace Overrides

/-- Settings with what the options change about them. -/
def apply (overrides : Overrides) (settings : Settings) : Settings :=
  { settings with
    log := { settings.log with
      file := overrides.logFile <|> settings.log.file
      consoleLevel := overrides.logLevel.getD settings.log.consoleLevel }
    processing := ⟨overrides.workers <|> settings.processing.workers⟩ }

/-- The run on a file that gives no settings. -/
def refuse (tree : FileTree) (path : Path) (fault : SettingsFileFault) : Conclusion :=
  match fault with
  | .file .nulCharacter => { ending := .broken (.file .nulCharacter), tree }
  | .encoding fault => { ending := .broken (.encoding fault), tree }
  | .beyond fault => { ending := .broken (.json fault), tree }
  | fault => {
      notices := [.error ("Invalid configuration: " ++ path.toText) (some fault.reason)]
      ending := Conclusion.failure, tree }

/-- The run with the settings that the options ask for. -/
def withSettings (overrides : Overrides) (limits : Json.Limits) (tree : FileTree)
    (run : Settings → Conclusion) : Conclusion :=
  match overrides.config with
  | none => run (overrides.apply {})
  | some path =>
    match Settings.load limits tree path with
    | .error fault => refuse tree path fault
    | .ok settings => run (overrides.apply settings)

end Overrides

/-! ### Commands -/

/-- The run of a session after its notices at the beginning, unless no session begins. -/
def inSession (settings : Settings) (tree : FileTree) (quiet : Bool) (notices : List Notice)
    (run : Session → Conclusion) : Conclusion :=
  match Session.start settings tree quiet with
  | (.error fault, touched) => { notices, ending := .broken (.log fault), tree := touched }
  | (.ok session, _) =>
    let rest := run session
    { rest with notices := notices ++ rest.notices }

/-- The validation of the corpus of some directories in a session. -/
def validateIn (session : Session) (directories : List Path) (quiet : Bool) : Conclusion :=
  let loaded := session.load (some directories)
  match loaded.result with
  | .error fault => .ofSession loaded.session [] (.broken (.build fault))
  | .ok corpus =>
    let (report, validated) := loaded.session.validate corpus
    let told := unlessQuiet quiet
      [.corpus directories corpus.glyphs.length corpus.rejections.length, .step "Validating"]
    if report.isValid then
      .ofSession validated (told ++ unlessQuiet quiet [.report report]) Conclusion.success
    else .ofSession validated (told ++ [.report report]) Conclusion.failure

/-- The validation of the corpus of some directories, or of those that the settings name if none
are given. -/
def validate (settings : Settings) (tree : FileTree) (sources : List Path) (quiet : Bool) :
    Conclusion :=
  inSession settings tree quiet (opening quiet "Reading glyphs") fun session ↦
    validateIn session (if sources.isEmpty then settings.glyphDirectories else sources) quiet

/-- The notices on a fault of a build, if it is an expected one. -/
def buildNotices? : BuildFault → Option (List Notice)
  | .file _ => none
  | .refused report =>
    some [.error "Corpus failed validation; no fonts were written" none, .report report]
  | .glyph failure =>
    some [.error ("Could not compile glyph '" ++ failure.label ++ "'") (some failure.reason)]
  | .font .unstorable => none
  | .font fault => some [.error fault.message none]
  | .save (.unwritable path reason) =>
    some [.error ("Could not save font: " ++ path.toText) (some reason)]
  | .save _ => none

/-- The building of fonts in a session. -/
def buildIn (session : Session) (directory : Path) (sources : List Path) (quiet : Bool) :
    Conclusion :=
  let built := session.build directory (if sources.isEmpty then none else some sources)
  match built.result with
  | .ok _ =>
    .ofSession built.session (unlessQuiet quiet [.success built.session.statistics])
      Conclusion.success
  | .error fault =>
    match buildNotices? fault with
    | some notices => .ofSession built.session notices Conclusion.failure
    | none => .ofSession built.session [] (.broken (.build fault))

/-- The directory of fonts where none is given. -/
def fontDirectory : Path := Path.ofString "build"

/-- The building of fonts from the corpus of some directories, or of those that the settings name
if none are given. -/
def build (settings : Settings) (tree : FileTree) (sources : List Path) (output : Option Path)
    (quiet : Bool) : Conclusion :=
  inSession settings tree quiet (opening quiet "Building") fun session ↦
    buildIn session (output.getD (settings.resolve fontDirectory)) sources quiet

/-- The directory of the glyph files of a set where none is given. -/
def setDirectory (set : GlyphSet) : Path :=
  (Path.ofString "glyphs").child set.name

/-- The run on the name of a set that there is not. -/
def refuseSet (tree : FileTree) (name : String) : Conclusion where
  notices := [.error ("Unknown glyph set: " ++ name)
    (some ("Valid values: " ++ ", ".intercalate (GlyphSet.all.map GlyphSet.name)))]
  ending := Conclusion.failure
  tree := tree

/-- The writing of the glyphs of a set. -/
def generate (settings : Settings) (tree : FileTree) (set : GlyphSet) (output : Option Path)
    (quiet : Bool) : Conclusion :=
  let directory := output.getD (settings.resolve (setDirectory set))
  match set.glyphs settings.raster with
  | .error (.raster reason) => {
      notices := [.error ("Cannot generate " ++ set.name) (some reason)]
      ending := Conclusion.failure, tree }
  | .error (.eighths error) => { ending := .broken (.eighths error), tree }
  | .ok glyphs =>
    match Corpus.write tree directory glyphs with
    | (written, none) => {
        notices := unlessQuiet quiet [.generated set.name glyphs.length directory]
        ending := Conclusion.success, tree := written }
    | (written, some .nulCharacter) => {
        ending := .broken (.file .nulCharacter), tree := written }
    | (written, some fault) => {
        notices := [.error ("Could not write to " ++ directory.toText) (some fault.message)]
        ending := Conclusion.failure, tree := written }

/-- The run that an invocation asks for. The name of a set is looked at before the settings. -/
def runInvocation (limits : Json.Limits) (tree : FileTree) : Invocation → Conclusion
  | .version => {
      notices := [.version programVersion], ending := Conclusion.success, tree }
  | .help => { notices := [.usage], ending := Conclusion.success, tree }
  | .validate sources overrides quiet =>
    overrides.withSettings limits tree fun settings ↦ validate settings tree sources quiet
  | .build sources output overrides quiet =>
    overrides.withSettings limits tree fun settings ↦ build settings tree sources output quiet
  | .generate name output overrides quiet =>
    match GlyphSet.ofName? name with
    | none => refuseSet tree name
    | some set =>
      overrides.withSettings limits tree fun settings ↦ generate settings tree set output quiet

/-- The run that the arguments of a command line ask for. A settings file is read within limits. -/
def run (limits : Json.Limits) (tree : FileTree) (arguments : List String) : Conclusion :=
  match Invocation.ofArguments arguments with
  | .ok invocation => runInvocation limits tree invocation
  | .error .usage => { ending := Conclusion.misuse, tree }
  | .error .nulCharacter => { ending := .broken (.file .nulCharacter), tree }

end PixelFont.Command
