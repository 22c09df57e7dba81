import Mathlib.Data.List.Basic
import PixelFont.Build.Session
import PixelFont.Proofs.FileTree.Access

/-!
What the steps of a session leave alone and what they depend on. Beginning a session changes no file
but that of the log, logging changes the log alone, and no step changes the settings. The fonts of
some weights depend on a corpus by the glyphs compiled of it for these weights, and by nothing else.
Main statement: `Session.buildWeights_congr`.
-/

set_option autoImplicit false

namespace PixelFont

namespace Session

/-! ### What is left alone -/

section Record

variable (session : Session) (events : List LogEvent)

@[simp] theorem settings_record : (session.record events).settings = session.settings := by
  unfold record
  split <;> rfl

@[simp] theorem tree_record : (session.record events).tree = session.tree := by
  unfold record
  split <;> rfl

@[simp] theorem statistics_record : (session.record events).statistics = session.statistics := by
  unfold record
  split <;> rfl

@[simp] theorem view_record : (session.record events).view = session.view := by
  rw [view, view, tree_record, settings_record]

end Record

/-- Steps in a row that leave the settings alone do so together. -/
theorem settings_foldl {α : Type} {step : Session → α → Session}
    (hstep : ∀ session item, (step session item).settings = session.settings)
    (session : Session) (items : List α) :
    (items.foldl step session).settings = session.settings :=
  List.foldlRecOn (motive := fun after ↦ after.settings = session.settings) items step rfl
    fun after hafter item _ ↦ (hstep after item).trans hafter

@[simp] theorem settings_noteEntry (session : Session) (entry : Glyph × Outline) :
    (session.noteEntry entry).settings = session.settings :=
  settings_record _ _

@[simp] theorem settings_noteFailed (session : Session) (label reason : String) :
    (session.noteFailed label reason).settings = session.settings :=
  settings_record _ _

@[simp] theorem settings_noteSkipped (session : Session) (label reason : String) :
    (session.noteSkipped label reason).settings = session.settings :=
  settings_record _ _

@[simp] theorem settings_afterRun (session : Session) (run : Compilation.Run) :
    (session.afterRun run).settings = session.settings := by
  have hcounted : (run.compiled.foldl noteEntry
      (session.record (startEvents session.settings run))).settings = session.settings := by
    rw [settings_foldl settings_noteEntry, settings_record]
  unfold afterRun
  dsimp only
  split
  · rw [settings_noteFailed, hcounted]
  · exact hcounted

@[simp] theorem settings_afterResolution (session : Session) (resolution : Resolution) :
    (session.afterResolution resolution).settings = session.settings :=
  settings_foldl (fun session _ ↦ settings_noteSkipped session _ _) session _

@[simp] theorem settings_afterCompilation (session : Session) (corpus : List Glyph)
    (weight : Weight) :
    (session.afterCompilation corpus weight).settings = session.settings := by
  unfold afterCompilation
  dsimp only
  split
  · rw [settings_afterRun]
  · rw [settings_afterResolution, settings_afterRun]

@[simp] theorem settings_saveFont (session : Session) (directory : Path)
    (compiled : CompiledFont) :
    (session.saveFont directory compiled).2.settings = session.settings := by
  unfold saveFont
  split
  · rfl
  · split
    · rfl
    · exact settings_record _ _

@[simp] theorem settings_buildWeight (session : Session) (directory : Path) (corpus : List Glyph)
    (weight : Weight) :
    (session.buildWeight directory corpus weight).session.settings = session.settings := by
  unfold buildWeight
  dsimp only
  split
  · exact settings_afterCompilation session corpus weight
  · rw [settings_saveFont]
    exact settings_afterCompilation session corpus weight

/-! ### Loading -/

section Load

variable (session : Session) (sources : Option (List Path))

theorem result_load : (session.load sources).result =
    (Corpus.read session.tree (sources.getD session.settings.glyphDirectories)).mapError
      .file := by
  unfold load
  dsimp only
  cases Corpus.read session.tree (sources.getD session.settings.glyphDirectories) <;> rfl

@[simp] theorem settings_load : (session.load sources).session.settings = session.settings := by
  unfold load
  dsimp only
  split <;> simp

@[simp] theorem tree_load : (session.load sources).session.tree = session.tree := by
  unfold load
  dsimp only
  split <;> simp

@[simp] theorem statistics_load :
    (session.load sources).session.statistics = session.statistics := by
  unfold load
  dsimp only
  split <;> simp

@[simp] theorem view_load : (session.load sources).session.view = session.view := by
  rw [view, view, tree_load, settings_load]

end Load

/-! ### Beginning -/

/-- Whether the file of the log is at a place of a tree. -/
def LogsAt (settings : Settings) (tree : FileTree) (place : Place) : Prop :=
  ∃ file ∈ settings.log.file,
    tree.locate (Path.ofComponents .slash (file.resolve tree.workingDirectory)) = .ok place

/-- The log file is the only file that opening the log changes. -/
theorem logsAt_of_node?_openLog_ne {settings : Settings} {tree : FileTree} {place : Place}
    (hchanged : (openLog settings tree).2.node? place ≠ tree.node? place) :
    LogsAt settings tree place := by
  unfold openLog at hchanged
  split at hchanged
  · exact absurd rfl hchanged
  · rename_i file hfile
    dsimp only at hchanged
    split at hchanged
    · exact absurd rfl hchanged
    · rename_i touched htouched
      have hplace : touched.node? place ≠ tree.node? place := by
        split at hchanged <;> exact hchanged
      exact ⟨file, hfile, FileTree.locate_of_node?_touch_ne htouched hplace⟩

/-- A session begins with the settings and the tree it is given, but for the log file. -/
theorem of_start {settings : Settings} {tree touched : FileTree} {quiet : Bool} {session : Session}
    (hstart : start settings tree quiet = (.ok session, touched)) :
    session.settings = settings ∧ session.tree = touched ∧ session.statistics = {} ∧
      (openLog settings tree).2 = touched := by
  unfold start at hstart
  split at hstart
  · exact absurd hstart (by simp)
  · rename_i threshold opened hopened
    split at hstart
    · exact absurd hstart (by simp)
    · obtain ⟨hsession, rfl⟩ := Prod.mk.inj hstart
      rw [← Except.ok.inj hsession, hopened]
      exact ⟨settings_record _ _, tree_record _ _, statistics_record _ _, rfl⟩

/-! ### What a build depends on -/

variable {first second : List Glyph}

/-- Of two corpora that have the same glyphs in a weight, the same is compiled. -/
theorem compile_congr {session : Session} {weight : Weight}
    (hselected : Compilation.selected session.settings first weight =
      Compilation.selected session.settings second weight) :
    session.compile first weight = session.compile second weight := by
  have hrun : Compilation.run session.settings first weight =
      Compilation.run session.settings second weight := by
    rw [Compilation.run, hselected]
    rfl
  have hresolution : Compilation.resolution session.settings first weight =
      Compilation.resolution session.settings second weight := by
    rw [Compilation.resolution, hselected]
    rfl
  rw [compile, Compilation.font, afterCompilation, hrun, hresolution]
  rfl

/-- Of two corpora that have the same glyphs in some weights, the same fonts are built of these
weights, with the same traces in the session. -/
theorem buildWeights_congr {session : Session} (directory : Path) {weights : List Weight}
    (hselected : ∀ weight ∈ weights, Compilation.selected session.settings first weight =
      Compilation.selected session.settings second weight) :
    session.buildWeights directory first weights =
      session.buildWeights directory second weights := by
  induction weights generalizing session with
  | nil => rfl
  | cons weight weights ih =>
    rw [List.forall_mem_cons] at hselected
    have hfirst : session.buildWeight directory first weight =
        session.buildWeight directory second weight := by
      rw [buildWeight, compile_congr hselected.1]
      rfl
    -- The settings are still the same when the other weights are built.
    have hrest : (session.buildWeight directory second weight).session.buildWeights directory
          first weights =
        (session.buildWeight directory second weight).session.buildWeights directory
          second weights :=
      ih (by simpa using hselected.2)
    simp only [buildWeights, hfirst, hrest]

/-- Of two corpora of which the same weights are built, with the same glyphs in each, the same fonts
are built. -/
theorem buildCorpus_congr {session : Session} (directory : Path)
    (hweights : session.settings.weightsFor first = session.settings.weightsFor second)
    (hselected : ∀ weight, Compilation.selected session.settings first weight =
      Compilation.selected session.settings second weight) :
    session.buildCorpus directory first = session.buildCorpus directory second := by
  rw [buildCorpus, buildCorpus, hweights,
    buildWeights_congr directory fun weight _ ↦ hselected weight]

end Session

end PixelFont
