import PixelFont.Build.Compilation
import PixelFont.Build.Statistics
import PixelFont.Font.Saving
import PixelFont.Gate.Check
import PixelFont.Log.Event

/-!
Sessions: the settings of a font with the files, the statistics and the log of what is done. A
session loads a corpus, passes it through the gate, compiles the glyphs of a weight, and builds
fonts. Whatever fails leaves its traces in the statistics, the log and the files. No time is told
in a session: each glyph counts as compiled at once.
-/

set_option autoImplicit false

namespace PixelFont

/-- A session. -/
structure Session where
  settings : Settings
  tree : FileTree
  statistics : BuildStatistics := {}
  /-- The number from which on events are written to the log file, if there is one. -/
  threshold : Option Nat := none
  /-- The events written to the log file. -/
  log : List LogEvent := []
  deriving Repr

/-- Why no session begins. -/
inductive LogFault where
  | file (fault : FileFault)
  | level (fault : LevelFault)
  deriving DecidableEq, Repr

/-- Why something done in a session fails. -/
inductive BuildFault where
  | file (fault : FileFault)
  /-- The corpus does not pass the gate. -/
  | refused (report : Report)
  | glyph (failure : GlyphFailure)
  | font (fault : FontFault)
  | save (fault : SaveFault)
  deriving DecidableEq, Repr

/-- The wording of a fault. -/
def BuildFault.message : BuildFault → String
  | .file fault => fault.message
  | .refused report => report.refusal
  | .glyph failure => failure.message
  | .font fault => fault.message
  | .save fault => fault.message

/-- What something done in a session gives: a result or a fault, the steps forward, and the
session as it is afterwards. -/
structure Outcome (α : Type) where
  result : Except BuildFault α
  session : Session
  progress : List Compilation.Progress := []

namespace Session

/-! ### Log -/

/-- The session with further events, of which those below the threshold are not written. -/
def record (session : Session) (events : List LogEvent) : Session :=
  match session.threshold with
  | none => session
  | some least =>
    { session with log := session.log ++ events.filter fun event ↦ least ≤ event.level.number }

/-- The tree with the log file and the threshold of the file. The file is made before its level
is looked at. -/
def openLog (settings : Settings) (tree : FileTree) :
    Except LogFault (Option Nat) × FileTree :=
  match settings.log.file with
  | none => (.ok none, tree)
  | some file =>
    let place := Path.ofComponents .slash (file.resolve tree.workingDirectory)
    match tree.touch place with
    | .error fault => (.error (.file fault), tree)
    | .ok touched =>
      match LogLevel.threshold settings.log.fileLevel with
      | .error fault => (.error (.level fault), touched)
      | .ok least => (.ok (some least), touched)

/-- The fault of the console level, which a quiet session does not look at. -/
def consoleFault? (settings : Settings) (quiet : Bool) : Option LogFault :=
  if quiet then none
  else
    match LogLevel.threshold settings.log.consoleLevel with
    | .error fault => some (.level fault)
    | .ok _ => none

/-- A session with given settings on a tree of files, and the tree as it is then. -/
def start (settings : Settings) (tree : FileTree) (quiet : Bool) :
    Except LogFault Session × FileTree :=
  match openLog settings tree with
  | (.error fault, touched) => (.error fault, touched)
  | (.ok threshold, touched) =>
    match consoleFault? settings quiet with
    | some fault => (.error fault, touched)
    | none =>
      (.ok (record { settings, tree := touched, threshold }
        [LogEvent.initialized settings.log.file]), touched)

/-! ### Corpus -/

/-- From where a session names the sources of findings. -/
def view (session : Session) : Gate.Viewpoint :=
  ⟨session.tree.workingDirectory, session.settings.projectRoot⟩

/-- Loading of the corpus of some directories, or of those that the settings name. -/
def load (session : Session) (directories : Option (List Path)) : Outcome Corpus :=
  let directories := directories.getD session.settings.glyphDirectories
  let after := session.record (Corpus.events session.tree directories)
  match Corpus.read session.tree directories with
  | .error fault => ⟨.error (.file fault), after, []⟩
  | .ok corpus => ⟨.ok corpus, after.record [LogEvent.corpusLoaded directories corpus], []⟩

/-- The report of the gate on a corpus. -/
def validate (session : Session) (corpus : Corpus) : Report × Session :=
  let report := Gate.report session.settings session.view corpus
  (report, session.record [LogEvent.corpusValidated report])

/-! ### Compilation -/

/-- The session after a glyph is compiled in some milliseconds. -/
def noteCompiled (session : Session) (label : String) (weight : Weight) (rectangles : Int)
    (duration : Number.Binary64) (derived : Bool) : Session :=
  let told := session.record [LogEvent.glyphCompiled label weight rectangles derived]
  { told with statistics := told.statistics.addCompiled rectangles duration derived }

/-- The session after a glyph fails to compile. -/
def noteFailed (session : Session) (label reason : String) : Session :=
  let told := session.record [LogEvent.glyphFailed label reason]
  { told with statistics := told.statistics.addFailed label reason }

/-- The session after a ligature is left out of the substitutions. -/
def noteSkipped (session : Session) (label reason : String) : Session :=
  session.record [LogEvent.ligatureSkipped label reason]

/-- The event of glyphs being compiled by several workers, if they are. -/
def startEvents (settings : Settings) (run : Compilation.Run) : List LogEvent :=
  if settings.processing.workers = some 1 then []
  else [LogEvent.parallelCompilation run.total settings.processing.workers]

/-- The session after a compiled glyph of a run. -/
def noteEntry (session : Session) (entry : Glyph × Outline) : Session :=
  session.noteCompiled entry.1.label entry.1.weight entry.2.contours.length
    (Number.Binary64.ofInt 0) entry.1.derived

/-- The session after a run. -/
def afterRun (session : Session) (run : Compilation.Run) : Session :=
  let told := session.record (startEvents session.settings run)
  let counted := run.compiled.foldl noteEntry told
  match run.failure with
  | some (glyph, reason) => counted.noteFailed glyph.label reason
  | none => counted

/-- Why a ligature is left out. -/
def skipReason (missing : List String) : String :=
  if missing.isEmpty then "no components"
  else "unresolved components: " ++ ", ".intercalate missing

/-- The session after the ligatures of a weight are resolved. -/
def afterResolution (session : Session) (resolution : Resolution) : Session :=
  let told := resolution.unresolved.foldl
    (fun session entry ↦ session.noteSkipped entry.1.label (skipReason entry.2)) session
  { told with
    statistics := { told.statistics with
      substitutions := told.statistics.substitutions + resolution.substitutions.length } }

/-- The session after the glyphs of a weight are compiled, or fail to be. -/
def afterCompilation (session : Session) (corpus : List Glyph) (weight : Weight) : Session :=
  let run := Compilation.run session.settings corpus weight
  let after := session.afterRun run
  match run.failure with
  | some _ => after
  | none =>
    after.afterResolution (Compilation.resolution session.settings corpus weight)

/-- Compilation of the glyphs of a weight. -/
def compile (session : Session) (corpus : List Glyph) (weight : Weight) :
    Outcome CompiledFont :=
  ⟨(Compilation.font session.settings corpus weight).mapError .glyph,
    session.afterCompilation corpus weight,
    (Compilation.run session.settings corpus weight).progress⟩

/-! ### Building -/

/-- The session with the files of a font saved. -/
def afterSaving (session : Session) (compiled : CompiledFont) (trueType compressed : Path) :
    Session :=
  let output : WeightOutput :=
    ⟨compiled.weight, compiled.outlines.length, some trueType, some compressed⟩
  let counted := { session with
    statistics := { session.statistics with outputs := session.statistics.outputs ++ [output] } }
  counted.record [LogEvent.fontSaved compiled.weight compiled.outlines.length
    compiled.rectangleCount compiled.substitutions.length trueType compressed]

/-- Assembly and saving of a font in a directory. -/
def saveFont (session : Session) (directory : Path) (compiled : CompiledFont) :
    Except BuildFault (Path × Path) × Session :=
  match Font.assemble session.settings compiled with
  | .error fault => (.error (.font fault), session)
  | .ok font =>
    match font.save session.tree directory session.settings.naming with
    | (.error fault, tree) => (.error (.save fault), { session with tree })
    | (.ok (trueType, compressed), tree) =>
      (.ok (trueType, compressed),
        afterSaving { session with tree } compiled trueType compressed)

/-- Building of the font of one weight. -/
def buildWeight (session : Session) (directory : Path) (corpus : List Glyph) (weight : Weight) :
    Outcome (Path × Path) :=
  let compiled := session.compile corpus weight
  match compiled.result with
  | .error fault => ⟨.error fault, compiled.session, compiled.progress⟩
  | .ok font =>
    let (result, saved) := compiled.session.saveFont directory font
    ⟨result, saved, compiled.progress⟩

/-- Building of the fonts of some weights in turn; the first fault ends it. -/
def buildWeights (session : Session) (directory : Path) (corpus : List Glyph) :
    List Weight → Outcome (List (Path × Path))
  | [] => ⟨.ok [], session, []⟩
  | weight :: weights =>
    let first := session.buildWeight directory corpus weight
    match first.result with
    | .error fault => ⟨.error fault, first.session, first.progress⟩
    | .ok paths =>
      let rest := first.session.buildWeights directory corpus weights
      ⟨rest.result.map (paths :: ·), rest.session, first.progress ++ rest.progress⟩

/-- Building of the fonts of a corpus that passed the gate. -/
def buildCorpus (session : Session) (directory : Path) (corpus : List Glyph) :
    Outcome (List (Path × Path)) :=
  let built := session.buildWeights directory corpus (session.settings.weightsFor corpus)
  match built.result with
  | .error fault => ⟨.error fault, built.session, built.progress⟩
  | .ok paths =>
    let stats := built.session.statistics
    ⟨.ok paths,
      built.session.record
        [LogEvent.buildComplete stats.compiled stats.derived stats.rectangles],
      built.progress⟩

/-- Building of the fonts in a directory, from the glyphs of some directories or of those that
the settings name: the paths of the files written. -/
def build (session : Session) (directory : Path) (sources : Option (List Path)) :
    Outcome (List (Path × Path)) :=
  let loaded := session.load sources
  match loaded.result with
  | .error fault => ⟨.error fault, loaded.session, []⟩
  | .ok corpus =>
    let counted := { loaded.session with
      statistics := { loaded.session.statistics with parsed := corpus.glyphs.length } }
    let (report, validated) := counted.validate corpus
    if report.isValid then validated.buildCorpus directory corpus.glyphs
    else ⟨.error (.refused report), validated, []⟩

end Session

end PixelFont
