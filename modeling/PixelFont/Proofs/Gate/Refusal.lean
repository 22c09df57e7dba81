import PixelFont.Command.Run
import PixelFont.Proofs.Build.Session
import PixelFont.Proofs.Corpus.Reading
import PixelFont.Proofs.Gate.Verdict

/-!
The gate from end to end, from the files in some directories to how a command ends. A build is
refused if a file is rejected or an error is found in the glyphs of the others; then nothing is
compiled, and no file changes but that of the log. A file that may not be read is rejected as one
that is malformed is. To validate the same directories ends with a status of one in these cases, and
otherwise with a status of zero, as long as the directories can be listed: neither command expects
one that cannot, be it that a path is too long or that a directory is barred. Main statement:
`isRefused_build_iff`.
-/

set_option autoImplicit false

namespace PixelFont

/-- Something done in a session is refused: the corpus does not pass the gate. -/
def Outcome.IsRefused {α : Type} (outcome : Outcome α) : Prop :=
  ∃ report, outcome.result = .error (.refused report)

namespace Gate

/-- What keeps the corpus of the files of some paths from passing the gate: one of them is rejected,
or there is an error in the glyphs of the others. -/
def Refuses (settings : Settings) (view : Viewpoint) (tree : FileTree) (paths : List Path) :
    Prop :=
  (∃ path ∈ paths, GlyphFile.IsRejected tree path) ∨
    (report settings view
      { glyphs := (Corpus.readings tree paths).filterMap Corpus.glyph? }).isValid = false

/-! ### The report -/

/-- A report has no error exactly if no file was rejected and the glyphs give none. -/
theorem isValid_report_iff_glyphs {settings : Settings} {view : Viewpoint} {corpus : Corpus} :
    (report settings view corpus).isValid = true ↔ corpus.rejections = [] ∧
      (report settings view { glyphs := corpus.glyphs }).isValid = true := by
  simp only [isValid_report_iff_forall, findings, List.forall_mem_append,
    forall_ne_error_iff severity_of_mem_rejectionFindings, rejectionFindings_eq_nil_iff, true_and,
    and_assoc]

theorem isValid_report_ofReadings_iff {settings : Settings} {view : Viewpoint} {tree : FileTree}
    {paths : List Path} :
    (report settings view (Corpus.ofReadings (Corpus.readings tree paths))).isValid = false ↔
      Refuses settings view tree paths := by
  rw [← Bool.not_eq_true, isValid_report_iff_glyphs, Corpus.rejections_ofReadings_eq_nil_iff,
    not_and_or, Bool.not_eq_true]
  simp only [not_forall, not_not, exists_prop]
  rfl

/-! ### Building -/

section Build

open Session

variable {session : Session} {directory : Path}

/-- A font that passed the gate is not refused. -/
theorem not_isRefused_buildWeight (corpus : List Glyph) (weight : Weight) :
    ¬ (session.buildWeight directory corpus weight).IsRefused := by
  rintro ⟨report, hrefused⟩
  unfold buildWeight compile at hrefused
  dsimp only at hrefused
  cases hfont : Compilation.font session.settings corpus weight with
  | error failure => simp [hfont, Except.mapError] at hrefused
  | ok compiled =>
    simp only [hfont, Except.mapError] at hrefused
    unfold saveFont at hrefused
    split at hrefused
    · simp at hrefused
    · split at hrefused <;> simp at hrefused

theorem not_isRefused_buildWeights (corpus : List Glyph) (weights : List Weight) :
    ¬ (session.buildWeights directory corpus weights).IsRefused := by
  induction weights generalizing session with
  | nil => exact nofun
  | cons weight weights ih =>
    rintro ⟨report, hrefused⟩
    rw [buildWeights] at hrefused
    cases hfirst : (session.buildWeight directory corpus weight).result with
    | error fault =>
      simp only [hfirst, Except.error.injEq] at hrefused
      exact not_isRefused_buildWeight corpus weight ⟨report, hrefused ▸ hfirst⟩
    | ok paths =>
      simp only [hfirst, Traversal.map_eq_error_iff] at hrefused
      exact ih ⟨report, hrefused⟩

theorem not_isRefused_buildCorpus (corpus : List Glyph) :
    ¬ (session.buildCorpus directory corpus).IsRefused := by
  rintro ⟨report, hrefused⟩
  unfold buildCorpus at hrefused
  dsimp only at hrefused
  split at hrefused
  · rename_i fault hfault
    rw [Except.error.injEq] at hrefused
    exact not_isRefused_buildWeights corpus _ ⟨report, hrefused ▸ hfault⟩
  · exact absurd hrefused nofun

/-- Where the corpus cannot be read, nothing is built. -/
theorem build_of_read_eq_error {sources : Option (List Path)} {fault : FileFault}
    (hread : Corpus.read session.tree (sources.getD session.settings.glyphDirectories) =
      .error fault) :
    (session.build directory sources).result = .error (.file fault) := by
  have hloaded : (session.load sources).result = .error (.file fault) := by
    rw [result_load, hread]
    rfl
  simp only [build, hloaded]

/-- Loading a corpus and noting how many glyphs it has does not change the report on it. -/
theorem report_load (session : Session) (sources : Option (List Path)) (corpus : Corpus)
    (statistics : BuildStatistics) :
    report (session.load sources).session.settings
        (view { (session.load sources).session with statistics }) corpus =
      report session.settings session.view corpus := by
  change report _ (session.load sources).session.view corpus = _
  rw [settings_load, view_load]

section Read

variable {sources : Option (List Path)} {corpus : Corpus}
  (hread : Corpus.read session.tree (sources.getD session.settings.glyphDirectories) = .ok corpus)
include hread

theorem result_load_of_read_eq_ok : (session.load sources).result = .ok corpus := by
  rw [result_load, hread]
  rfl

/-- A corpus with an error is refused, and of what was read only the number of glyphs is noted. -/
theorem build_of_isValid_eq_false
    (hinvalid : (report session.settings session.view corpus).isValid = false) :
    (session.build directory sources).IsRefused ∧
      (session.build directory sources).session.tree = session.tree ∧
      (session.build directory sources).session.statistics =
        { session.statistics with parsed := corpus.glyphs.length } ∧
      (session.build directory sources).progress = [] := by
  simp only [Outcome.IsRefused, build, result_load_of_read_eq_ok hread, validate, report_load,
    hinvalid]
  exact ⟨⟨_, rfl⟩, by simp, by simp, rfl⟩

/-- A corpus without errors is not refused. -/
theorem not_isRefused_build
    (hvalid : (report session.settings session.view corpus).isValid = true) :
    ¬ (session.build directory sources).IsRefused := by
  simp only [build, result_load_of_read_eq_ok hread, validate, report_load, hvalid]
  exact not_isRefused_buildCorpus corpus.glyphs

end Read

/-- A build that is refused leaves the files alone, and it compiles nothing. -/
theorem trace_of_isRefused_build {sources : Option (List Path)}
    (hrefused : (session.build directory sources).IsRefused) :
    (session.build directory sources).session.tree = session.tree ∧
      (session.build directory sources).progress = [] ∧
      ∃ parsed, (session.build directory sources).session.statistics =
        { session.statistics with parsed } := by
  cases hread : Corpus.read session.tree (sources.getD session.settings.glyphDirectories) with
  | error fault =>
    obtain ⟨report, hresult⟩ := hrefused
    exact absurd ((build_of_read_eq_error hread).symm.trans hresult) nofun
  | ok corpus =>
    cases hvalid : (report session.settings session.view corpus).isValid with
    | true => exact absurd hrefused (not_isRefused_build hread hvalid)
    | false =>
      obtain ⟨-, htree, hstatistics, hprogress⟩ := build_of_isValid_eq_false hread hvalid
      exact ⟨htree, hprogress, _, hstatistics⟩

end Build

/-! ### Commands -/

section Commands

/-- How validation in a session ends depends on the report alone, if the corpus can be read. -/
theorem ending_validateIn (session : Session) (directories : List Path) (quiet : Bool) :
    (Command.validateIn session directories quiet).ending =
      match Corpus.read session.tree directories with
      | .error fault => .broken (.build (.file fault))
      | .ok corpus =>
        if (report session.settings session.view corpus).isValid then .status 0
        else .status 1 := by
  have hloaded := Session.result_load session (some directories)
  rw [Option.getD_some] at hloaded
  unfold Command.validateIn
  cases hread : Corpus.read session.tree directories with
  | error fault =>
    rw [hread] at hloaded
    simp only [hloaded, Except.mapError, Command.Conclusion.ofSession]
  | ok corpus =>
    rw [hread] at hloaded
    simp only [hloaded, Except.mapError, Session.validate, Session.settings_load,
      Session.view_load]
    cases (report session.settings session.view corpus).isValid <;> rfl

variable {settings : Settings} {tree touched : FileTree} {quiet : Bool} {session : Session}

theorem ending_validate (hstart : Session.start settings tree quiet = (.ok session, touched))
    (operands : List Path) :
    (Command.validate settings tree operands quiet).ending =
      (Command.validateIn session
        (if operands.isEmpty then settings.glyphDirectories else operands) quiet).ending := by
  rw [Command.validate, Command.inSession, hstart]

/-- How a build and a validation of the same directories end. Both break off where the directories
cannot be listed. Elsewhere, the build is refused and the validation fails if the gate refuses the
files found, and the build is not refused and the validation succeeds if it does not. -/
inductive EndTogether (session : Session) (directories : List Path)
    (built : Outcome (List (Path × Path))) (ending : Command.Ending) : Prop where
  | unlisted {fault : FileFault}
      (hdiscover : Corpus.discover session.tree directories = .error fault)
      (hbuilt : built.result = .error (.file fault))
      (hending : ending = .broken (.build (.file fault)))
  | refused {paths : List Path} (hdiscover : Corpus.discover session.tree directories = .ok paths)
      (hrefuses : Refuses session.settings session.view session.tree paths)
      (hbuilt : built.IsRefused) (hending : ending = .status 1)
  | passed {paths : List Path} (hdiscover : Corpus.discover session.tree directories = .ok paths)
      (hpasses : ¬ Refuses session.settings session.view session.tree paths)
      (hbuilt : ¬ built.IsRefused) (hending : ending = .status 0)

theorem endTogether_build_validateIn {sources : Option (List Path)} {directories : List Path}
    (hsources : sources.getD session.settings.glyphDirectories = directories) (output : Path)
    (quiet : Bool) :
    EndTogether session directories (session.build output sources)
      (Command.validateIn session directories quiet).ending := by
  have hending := ending_validateIn session directories quiet
  subst hsources
  cases hdiscover : Corpus.discover session.tree
      (sources.getD session.settings.glyphDirectories) with
  | error fault =>
    have hread : Corpus.read session.tree (sources.getD session.settings.glyphDirectories) =
        .error fault := by
      rw [Corpus.read, hdiscover]
    rw [hread] at hending
    exact .unlisted hdiscover (build_of_read_eq_error hread) hending
  | ok paths =>
    have hread : Corpus.read session.tree (sources.getD session.settings.glyphDirectories) =
        .ok (Corpus.ofReadings (Corpus.readings session.tree paths)) := by
      rw [Corpus.read, hdiscover]
    rw [hread] at hending
    cases hvalid : (report session.settings session.view
        (Corpus.ofReadings (Corpus.readings session.tree paths))).isValid with
    | false =>
      exact .refused hdiscover (isValid_report_ofReadings_iff.mp hvalid)
        (build_of_isValid_eq_false hread hvalid).1 (by simpa [hvalid] using hending)
    | true =>
      have hpasses : ¬ Refuses session.settings session.view session.tree paths := by
        rw [← isValid_report_ofReadings_iff, hvalid]
        exact nofun
      exact .passed hdiscover hpasses (not_isRefused_build hread hvalid)
        (by simpa [hvalid] using hending)

/-- Once the log is set up, a build is refused exactly if the files in its directories are found and
one of them is rejected or the others give an error. Then no file is changed but that of the log,
and nothing is compiled. To validate the same directories ends with a status of one exactly if the
build is refused or a directory cannot be listed, and with zero otherwise; where a directory cannot
be listed, both break off with the fault of the first such directory. -/
theorem isRefused_build_iff
    (hstart : Session.start settings tree quiet = (.ok session, touched))
    {directories operands : List Path} {sources : Option (List Path)}
    (hsources : sources.getD settings.glyphDirectories = directories)
    (hoperands : (if operands.isEmpty then settings.glyphDirectories else operands) = directories)
    (output : Path) :
    let built := session.build output sources
    let ending := (Command.validate settings tree operands quiet).ending
    let isUnlistable := ∃ source ∈ directories, Corpus.IsUnlistable touched source
    (built.IsRefused ↔ ∃ paths, Corpus.discover touched directories = .ok paths ∧
        Refuses settings session.view touched paths) ∧
      (built.IsRefused →
        (∀ place, built.session.tree.node? place ≠ tree.node? place →
          Session.LogsAt settings tree place) ∧
        built.progress = [] ∧ ∃ parsed, built.session.statistics = { parsed }) ∧
      (ending = .status 1 ↔ built.IsRefused) ∧
      (ending.code = 1 ↔ built.IsRefused ∨ isUnlistable) ∧
      (ending.code = 0 ↔ ¬ (built.IsRefused ∨ isUnlistable)) ∧
      (isUnlistable → ∃ fault before source after,
        directories = before ++ source :: after ∧
        (∀ earlier ∈ before, ¬ Corpus.IsUnlistable touched earlier) ∧
        Corpus.ListingFault touched source fault ∧
        built.result = .error (.file fault) ∧ ending = .broken (.build (.file fault))) := by
  intro built ending isUnlistable
  obtain ⟨rfl, rfl, hstatistics, hopened⟩ := Session.of_start hstart
  have hending : ending = (Command.validateIn session directories quiet).ending := by
    rw [← hoperands]
    exact ending_validate hstart operands
  have htrace : built.IsRefused →
      (∀ place, built.session.tree.node? place ≠ tree.node? place →
        Session.LogsAt session.settings tree place) ∧
      built.progress = [] ∧ ∃ parsed, built.session.statistics = { parsed } := by
    intro hrefused
    obtain ⟨htree, hprogress, parsed, hparsed⟩ := trace_of_isRefused_build hrefused
    rw [hstatistics] at hparsed
    refine ⟨fun place hchanged ↦ ?_, hprogress, parsed, hparsed⟩
    rw [htree, ← hopened] at hchanged
    exact Session.logsAt_of_node?_openLog_ne hchanged
  have hunlistable : isUnlistable ↔
      ∃ fault, Corpus.discover session.tree directories = .error fault :=
    Corpus.exists_discover_eq_error_iff.symm
  refine and_left_comm.mpr ⟨htrace, ?_⟩
  rw [hending, hunlistable]
  cases endTogether_build_validateIn hsources output quiet with
  | unlisted hdiscover hbuilt hending =>
    have hunrefused : ¬ built.IsRefused := by
      rintro ⟨report, hrefused⟩
      exact absurd (hbuilt.symm.trans hrefused) nofun
    obtain ⟨before, source, after, hdirectories, hbefore, hfault⟩ :=
      Corpus.exists_first_of_discover_eq_error hdiscover
    refine ⟨?_, ?_, ?_, ?_, fun _ ↦
      ⟨_, before, source, after, hdirectories, hbefore, hfault, hbuilt, hending⟩⟩
    all_goals simp [hdiscover, hunrefused, hending, Command.Ending.code]
  | refused hdiscover hrefuses hbuilt hending =>
    simp [hdiscover, hrefuses, hbuilt, hending, built, Command.Ending.code]
  | passed hdiscover hpasses hbuilt hending =>
    simp [hdiscover, hpasses, hbuilt, hending, built, Command.Ending.code]

/-- A file that may not be read has the build of its directory refused and the validation fail. With
a directory that may not be listed, both break off. -/
theorem isRefused_build_denied :
    let locked : FileNode := .file (.bytes []) { reading := some .denied }
    let shut : FileNode := .directory { reading := some .denied }
    let tree := ((FileTree.empty []).add ["g", "A.glyph"] locked).add ["h"] shut
    let session : Session := { settings := Settings.oneCell, tree }
    let built (directory : Path) := session.build Path.here (some [directory])
    let ending (directory : Path) :=
      (Command.validate Settings.oneCell tree [directory] true).ending
    Session.start Settings.oneCell tree true = (.ok session, tree) ∧
      (built (Path.ofString "g")).IsRefused ∧ (built (Path.ofString "g")).progress = [] ∧
      (ending (Path.ofString "g")).code = 1 ∧
      (built (Path.ofString "h")).result = .error (.file (.barred .denied)) ∧
      ending (Path.ofString "h") = .broken (.build (.file (.barred .denied))) := by
  intro locked shut tree session built ending
  have hstart : Session.start Settings.oneCell tree true = (.ok session, tree) := rfl
  have hsources (directory : Path) :
      (some [directory]).getD Settings.oneCell.glyphDirectories = [directory] := rfl
  have hoperands (directory : Path) :
      (if [directory].isEmpty then Settings.oneCell.glyphDirectories else [directory]) =
        [directory] := rfl
  have hgate (directory : Path) :=
    isRefused_build_iff hstart (hsources directory) (hoperands directory) Path.here
  obtain ⟨hrefused, htrace, -, hcode, -⟩ := hgate (Path.ofString "g")
  have hfound : Corpus.discover tree [Path.ofString "g"] = .ok [Path.ofString "g/A.glyph"] := by
    decide +kernel
  have hread : tree.read (Path.ofString "g/A.glyph") = .error (.barred .denied) := by
    decide +kernel
  have hbuilt : (built (Path.ofString "g")).IsRefused :=
    hrefused.mpr ⟨_, hfound, .inl ⟨_, List.mem_singleton_self _, .unreadable hread⟩⟩
  refine ⟨hstart, hbuilt, (htrace hbuilt).2.1, hcode.mpr (.inl hbuilt), ?_⟩
  obtain ⟨-, -, -, -, -, hbreaks⟩ := hgate (Path.ofString "h")
  have hleads : tree.LeadsTo (Path.ofString "h") ["h"] { reading := some .denied } :=
    ⟨by decide +kernel, by decide +kernel⟩
  obtain ⟨fault, -, -, -, -, -, -, hresult, hending⟩ :=
    hbreaks ⟨_, List.mem_singleton_self _, _, .listing hleads rfl rfl⟩
  have hdenied : Corpus.read tree [Path.ofString "h"] = .error (.barred .denied) := by
    decide +kernel
  obtain rfl : fault = .barred .denied := by
    simpa using hresult.symm.trans (build_of_read_eq_error hdenied)
  exact ⟨hresult, hending⟩

/-- To validate a directory whose one file is the required glyph succeeds. With a second directory
that is not there, whose name is too long, it ends with a status of one, and the build breaks off
without being refused. -/
theorem code_validate_nameTooLong :
    let letter := Text.Utf8.encode "# A (U+0041)\n\nX\n".toList
    let tree := (FileTree.empty []).add ["g", "A.glyph"] (.file (.bytes letter))
    let session : Session := { settings := Settings.oneCell, tree }
    let directory := Path.ofString "g"
    let absent := Path.ofComponents .none [String.ofList (List.replicate 256 'x')]
    Session.start Settings.oneCell tree true = (.ok session, tree) ∧
      (Command.validate Settings.oneCell tree [directory] true).ending.code = 0 ∧
      (Command.validate Settings.oneCell tree [directory, absent] true).ending.code = 1 ∧
      (session.build Path.here (some [directory, absent])).result =
        .error (.file .nameTooLong) ∧
      ¬ (session.build Path.here (some [directory, absent])).IsRefused := by
  intro letter tree session directory absent
  have hstart : Session.start Settings.oneCell tree true = (.ok session, tree) := rfl
  have hlong : tree.locate absent = .error .nameTooLong := by
    refine FileTree.locate_eq_nameTooLong (fun c hc ↦ ?_) (by decide +kernel) (by decide +kernel)
    rw [String.toList_ofList] at hc
    rw [List.eq_of_mem_replicate hc]
    decide
  have hlisted : ∀ earlier ∈ [directory], ∃ listing,
      Corpus.listing? tree earlier = .ok listing := by
    have hlisting : Corpus.listing? tree directory = .ok (some [directory.child "A.glyph"]) := by
      decide +kernel
    simpa using ⟨_, hlisting⟩
  have hread : Corpus.read tree [directory, absent] = .error .nameTooLong := by
    have hdiscover : Corpus.discover tree [directory, absent] = .error .nameTooLong :=
      Corpus.discover_eq_error_of_locate hlisted hlong rfl
    rw [Corpus.read, hdiscover]
  have hresult : (session.build Path.here (some [directory, absent])).result =
      .error (.file .nameTooLong) := build_of_read_eq_error hread
  refine ⟨hstart, by decide +kernel, ?_, hresult, ?_⟩
  · rw [ending_validate hstart]
    have hending := ending_validateIn session [directory, absent] true
    rw [show session.tree = tree from rfl, hread] at hending
    exact congrArg Command.Ending.code hending
  · rintro ⟨report, hrefused⟩
    exact absurd (hresult.symm.trans hrefused) nofun

end Commands

end Gate

end PixelFont
