import PixelFont.Proofs.Settings.Spelling
import PixelFont.Settings.File

/-!
The spelling of keys makes no difference to settings. A record of settings may be respelled in any
of its keys and in those of its sections. As long as no key is given in both spellings, its sections
are read alike and its project root is the same (`Settings.FieldsAlike`), also after the directory
of the file has been put in the place of a project root that is given in neither spelling. What a
file gives is therefore the same, or it is refused for the same fault at the same place but for the
spelling of keys. Main statement: `Settings.load_respelled`.
-/

set_option autoImplicit false

namespace PixelFont

namespace Settings

theorem mem_allKeys_of_mem_sections {group : SettingsKey × List SettingsKey}
    (hgroup : group ∈ sections) : group.1 ∈ allKeys ∧ ∀ key ∈ group.2, key ∈ allKeys := by
  have hall : ∀ group ∈ sections, group.1 ∈ allKeys ∧ ∀ key ∈ group.2, key ∈ allKeys := by decide
  exact hall group hgroup

theorem mem_keys_of_mem_sections {group : SettingsKey × List SettingsKey}
    (hgroup : group ∈ sections) : group.1 ∈ keys :=
  List.mem_append_left _ (List.mem_map_of_mem hgroup)

/-- A name spells the key of one section at most. -/
theorem eq_of_mem_sections {group other : SettingsKey × List SettingsKey} {name : String}
    (hgroup : group ∈ sections) (hother : other ∈ sections) (hname : name ∈ group.1.spellings)
    (hsame : name ∈ other.1.spellings) : group = other := by
  have hkey := SettingsKey.areTold_keys group.1 (mem_keys_of_mem_sections hgroup) other.1
    (mem_keys_of_mem_sections hother) name hname hsame
  have hall : ∀ group ∈ sections, ∀ other ∈ sections, group.1 = other.1 → group = other := by
    decide
  exact hall group hgroup other hother hkey

/-! ### Records of settings -/

/-- Whether two fields of records of settings are the same but for the spelling of the key, or of
keys in a section. -/
inductive RespelledField : String × Value → String × Value → Prop where
  | key {field other : String × Value} (hfield : SettingsKey.RespelledField keys field other) :
    RespelledField field other
  | inSection {group : SettingsKey × List SettingsKey} (hgroup : group ∈ sections) {name : String}
    (hname : name ∈ group.1.spellings) {fields others : List (String × Value)}
    (hfields : List.Forall₂ (SettingsKey.RespelledField group.2) fields others) :
    RespelledField (name, .record fields) (name, .record others)

/-- Whether a record of settings gives no key in both spellings, nor does a section of it. -/
structure GivesKeysOnce (fields : List (String × Value)) : Prop where
  here : SettingsKey.GivesOnce keys fields
  inSection : ∀ group ∈ sections, ∀ name ∈ group.1.spellings, ∀ inner : List (String × Value),
    (name, .record inner) ∈ fields → SettingsKey.GivesOnce group.2 inner

/-- Whether two records of settings have sections that are read alike and the same project root. -/
structure FieldsAlike (fields others : List (String × Value)) : Prop where
  inSection : ∀ group ∈ sections,
    group.1.FoundAlike (Value.SectionAlike group.2) fields others
  projectRoot : SettingsKey.projectRoot.FoundAlike Eq fields others

variable {fields others : List (String × Value)} {path : Path}

theorem RespelledField.alike {field other : String × Value} (hfield : RespelledField field other) :
    SettingsKey.Alike keys field.1 other.1 := by
  cases hfield with
  | key hfield => exact hfield.1
  | inSection _ _ _ => exact Or.inl rfl

/-- Sections respelled within are read alike. -/
theorem RespelledField.sectionAlike {field other : String × Value}
    (hfield : RespelledField field other) {group : SettingsKey × List SettingsKey}
    (hgroup : group ∈ sections) (hname : field.1 ∈ group.1.spellings)
    (hdistinct : field.2.HasDistinctKeys)
    (honce : ∀ inner : List (String × Value), field.2 = .record inner →
      SettingsKey.GivesOnce group.2 inner) : Value.SectionAlike group.2 field.2 other.2 := by
  cases hfield with
  | key hfield =>
    rw [← hfield.2]
    exact Value.SectionAlike.refl _
  | inSection hother hsame hfields =>
    obtain rfl := eq_of_mem_sections hgroup hother hname hsame
    have hunambiguous :=
      (honce _ rfl).isUnambiguous (Value.hasDistinctKeys_record_iff.mp hdistinct).1
    exact Value.sectionAlike_record (SettingsKey.readAlike_of_forall₂
      (mem_allKeys_of_mem_sections hgroup).2 (SettingsKey.areTold_of_mem_sections hgroup)
      hunambiguous hfields)

/-- A project root is the same value in either record. -/
theorem RespelledField.eq_of_projectRoot {field other : String × Value}
    (hfield : RespelledField field other) (hname : field.1 ∈ SettingsKey.projectRoot.spellings) :
    field.2 = other.2 := by
  cases hfield with
  | key hfield => exact hfield.2
  | inSection hgroup hsame _ =>
    have hkey := SettingsKey.areTold_keys _ (mem_keys_of_mem_sections hgroup)
      SettingsKey.projectRoot (by decide) _ hsame hname
    have hnone : ∀ group ∈ sections, group.1 ≠ SettingsKey.projectRoot := by decide
    exact absurd hkey (hnone _ hgroup)

/-- Records that are respelled field by field have sections that are read alike and the same project
root. -/
theorem fieldsAlike_of_forall₂ (hdistinct : (Value.record fields).HasDistinctKeys)
    (honce : GivesKeysOnce fields) (hrespelled : List.Forall₂ RespelledField fields others) :
    FieldsAlike fields others := by
  obtain ⟨hkeys, hvalues⟩ := Value.hasDistinctKeys_record_iff.mp hdistinct
  have hunambiguous := honce.here.isUnambiguous hkeys
  refine ⟨fun group hgroup ↦ ?_, ?_⟩
  · refine SettingsKey.foundAlike_of_forall₂ hunambiguous SettingsKey.areTold_keys hrespelled
      (fun _ _ hpair ↦ hpair.alike) (mem_keys_of_mem_sections hgroup) ?_
    intro field hfield other hpair hname
    refine hpair.sectionAlike hgroup hname (hvalues field hfield) fun inner hinner ↦ ?_
    exact honce.inSection group hgroup field.1 hname inner (hinner ▸ hfield)
  · exact SettingsKey.foundAlike_of_forall₂ hunambiguous SettingsKey.areTold_keys hrespelled
      (fun _ _ hpair ↦ hpair.alike) (by decide) fun _ _ _ hpair hname ↦
        hpair.eq_of_projectRoot hname

/-! ### The project root -/

/-- The field of the project root is the one given, or that of the directory of the file. -/
theorem find?_withProjectRoot :
    SettingsKey.projectRoot.find? (withProjectRoot path fields) =
      some ((SettingsKey.projectRoot.find? fields).getD
        (SettingsKey.projectRoot.capitals, .text path.parent.toText)) := by
  unfold withProjectRoot
  cases hfind : SettingsKey.projectRoot.find? fields with
  | none =>
    dsimp only
    rw [SettingsKey.find?, Value.lookup?_assign_self]
    rfl
  | some field => exact hfind

/-- The fields of other keys are found as before. -/
theorem find?_withProjectRoot_of_notMem {key : SettingsKey}
    (hkey : SettingsKey.projectRoot.capitals ∉ key.spellings) :
    key.find? (withProjectRoot path fields) = key.find? fields := by
  obtain ⟨hcapitals, hlowLines⟩ : SettingsKey.projectRoot.capitals ≠ key.capitals ∧
      SettingsKey.projectRoot.capitals ≠ key.lowLines := by
    simpa [SettingsKey.spellings] using hkey
  unfold withProjectRoot
  split
  · rfl
  · unfold SettingsKey.find?
    rw [Value.lookup?_assign_of_ne hcapitals.symm, Value.lookup?_assign_of_ne hlowLines.symm]

namespace FieldsAlike

variable (halike : FieldsAlike fields others)
include halike

/-- The directory of a file takes the place of the project root in both records or in neither. -/
theorem withProjectRoot (path : Path) :
    FieldsAlike (withProjectRoot path fields) (withProjectRoot path others) := by
  refine ⟨fun group hgroup ↦ ?_, ?_⟩
  · have hnone : ∀ group ∈ sections, SettingsKey.projectRoot.capitals ∉ group.1.spellings := by
      decide
    unfold SettingsKey.FoundAlike
    rw [find?_withProjectRoot_of_notMem (hnone group hgroup),
      find?_withProjectRoot_of_notMem (hnone group hgroup)]
    exact halike.inSection group hgroup
  · have hroot := halike.projectRoot
    unfold SettingsKey.FoundAlike at hroot ⊢
    rw [find?_withProjectRoot, find?_withProjectRoot]
    generalize SettingsKey.projectRoot.find? fields = field at hroot ⊢
    generalize SettingsKey.projectRoot.find? others = other at hroot ⊢
    cases hroot with
    | none => exact .some ⟨List.mem_cons_self, List.mem_cons_self, rfl⟩
    | some hpair => exact .some hpair

theorem read_inSection (group : SettingsKey × List SettingsKey) (hgroup : group ∈ sections)
    {α : Type} (default : α) (model : String) {reading : List (String × Value) → Checked α}
    (hreading : ∀ {fields others : List (String × Value)},
      SettingsKey.ReadAlike group.2 fields others → (reading fields).Alike (reading others)) :
    (group.1.read fields default (Value.readSection model reading)).Alike
      (group.1.read others default (Value.readSection model reading)) :=
  (halike.inSection group hgroup).read (mem_allKeys_of_mem_sections hgroup).1 default
    fun _ _ hvalue ↦ hvalue model reading hreading

/-- Settings are read alike. -/
theorem ofFields : (ofFields fields).Alike (ofFields others) := by
  refine .andThen ?_ check
  refine .seq (.seq (.seq (.seq (.seq (.seq (.seq (.map ?_ _) ?_) ?_) ?_) ?_) ?_) ?_) ?_
  · exact halike.read_inSection (.font, Naming.keys) (by decide) _ _ Naming.ofFields_alike
  · exact halike.read_inSection (.grid, RasterSize.keys) (by decide) _ _ RasterSize.ofFields_alike
  · exact halike.read_inSection (.metrics, Metrics.keys) (by decide) _ _ Metrics.ofFields_alike
  · exact halike.read_inSection (.weights, WeightClasses.keys) (by decide) _ _
      WeightClasses.ofFields_alike
  · exact halike.read_inSection (.corpus, CorpusRules.keys) (by decide) _ _
      CorpusRules.ofFields_alike
  · exact halike.read_inSection (.processing, Processing.keys) (by decide) _ _
      Processing.ofFields_alike
  · exact halike.read_inSection (.logging, LogSettings.keys) (by decide) _ _
      LogSettings.ofFields_alike
  · exact halike.projectRoot.read_of_eq (by decide) _ _

end FieldsAlike

/-! ### Files -/

theorem load_eq_ofFileValue {limits : Json.Limits} {tree : FileTree} {text : List Char}
    (htext : GlyphFile.readText tree path = .ok text)
    (hread : Json.read limits (unifyLines text) = .ok (.record fields)) :
    load limits tree path = ofFileValue path (.record fields) := by
  unfold load
  rw [htext]
  dsimp only
  rw [ofFileText, hread]

/-- Of two files at the same path, let the first hold a record that gives no key in both spellings,
and the second this record with any of its keys, and of the keys in its sections, in their other
spelling. Either both give the same settings, so that the project root and the directories of glyph
files are the same too, or both are refused for the same fault in the same words, at places that
differ at most in the spelling of keys. -/
theorem load_respelled {limits : Json.Limits} {tree other : FileTree} {text otherText : List Char}
    (htext : GlyphFile.readText tree path = .ok text)
    (hread : Json.read limits (unifyLines text) = .ok (.record fields))
    (hotherText : GlyphFile.readText other path = .ok otherText)
    (hotherRead : Json.read limits (unifyLines otherText) = .ok (.record others))
    (honce : GivesKeysOnce fields) (hrespelled : List.Forall₂ RespelledField fields others) :
    (∃ settings, load limits tree path = .ok settings ∧ load limits other path = .ok settings) ∨
      ∃ issue otherIssue, load limits tree path = .error (.invalid issue) ∧
        load limits other path = .error (.invalid otherIssue) ∧
        List.Forall₂ Step.Alike issue.place otherIssue.place ∧
        issue.fault = otherIssue.fault ∧
        ∃ wording,
          (SettingsFileFault.invalid issue).reason =
            ".".intercalate (issue.place.map Step.text) ++ ": " ++ wording ∧
          (SettingsFileFault.invalid otherIssue).reason =
            ".".intercalate (otherIssue.place.map Step.text) ++ ": " ++ wording := by
  have halike := ((fieldsAlike_of_forall₂ (Json.hasDistinctKeys_read hread) honce
    hrespelled).withProjectRoot path).ofFields
  rw [load_eq_ofFileValue htext hread, load_eq_ofFileValue hotherText hotherRead]
  unfold ofFileValue
  dsimp only [Value.asRecord?]
  generalize ofFields (withProjectRoot path fields) = reading at halike ⊢
  generalize ofFields (withProjectRoot path others) = otherReading at halike ⊢
  cases halike with
  | value settings => exact Or.inl ⟨settings, rfl, rfl⟩
  | issues hfirst _ =>
    exact Or.inr ⟨_, _, rfl, rfl, hfirst.place, hfirst.fault, hfirst.exists_text_eq⟩

/-- Two files at the same path, the one with low lines in its keys and the other with inner
capitals, give the same settings, the project root among them. -/
theorem load_respelled_files :
    let low := "\x7b\"project_root\": \"x\", \"metrics\": \x7b\"pixel_size\": 5\x7d\x7d"
    let capital := "\x7b\"projectRoot\": \"x\", \"metrics\": \x7b\"pixelSize\": 5\x7d\x7d"
    let holding (text : String) : FileTree :=
      (FileTree.empty []).add ["c.json"] (.file (.bytes (Text.Utf8.encode text.toList)))
    let path := Path.ofString "c.json"
    let settings : Settings :=
      { metrics := { pixelSize := 5 }, projectRoot := Path.ofString "x" }
    load {} (holding low) path = .ok settings ∧ load {} (holding capital) path = .ok settings := by
  intro low capital holding path settings
  have hload : load {} (holding low) path = .ok settings := by decide +kernel
  have hatom : Json.atom {} ['5', '\x7d', '\x7d'] = .ok (.int 5, ['\x7d', '\x7d']) := rfl
  obtain ⟨hread, hotherRead⟩ :
      Json.read {} (unifyLines low.toList) = .ok (.record [("project_root", .text "x"),
        ("metrics", .record [("pixel_size", .int 5)])]) ∧
      Json.read {} (unifyLines capital.toList) = .ok (.record [("projectRoot", .text "x"),
        ("metrics", .record [("pixelSize", .int 5)])]) := by
    simp [low, capital, unifyLines, Json.read, Json.skipBlank, Json.value, Json.members,
      Json.stringRest, Json.unitChars, Json.unitChar, Json.isHighSurrogate, Json.isLowSurrogate,
      Value.assign, bind, Except.bind, pure, Except.pure, hatom]
  have honce : GivesKeysOnce [("project_root", .text "x"),
      ("metrics", .record [("pixel_size", .int 5)])] := by
    refine ⟨by decide, fun group hgroup name _ inner hinner ↦ ?_⟩
    obtain ⟨-, rfl⟩ : name = "metrics" ∧ inner = [("pixel_size", .int 5)] := by
      simpa using hinner
    have hall : ∀ group ∈ sections, SettingsKey.GivesOnce group.2 [("pixel_size", .int 5)] := by
      decide
    exact hall group hgroup
  have hroot : RespelledField ("project_root", .text "x") ("projectRoot", .text "x") :=
    .key ⟨Or.inr ⟨.projectRoot, by decide, by decide, by decide⟩, rfl⟩
  have hsize : RespelledField ("metrics", .record [("pixel_size", .int 5)])
      ("metrics", .record [("pixelSize", .int 5)]) :=
    @RespelledField.inSection (.metrics, Metrics.keys) (by decide) "metrics" (by decide) _ _
      (.cons ⟨Or.inr ⟨.pixelSize, by decide, by decide, by decide⟩, rfl⟩ .nil)
  have htext : GlyphFile.readText (holding low) path = .ok low.toList := by decide +kernel
  have hotherText : GlyphFile.readText (holding capital) path = .ok capital.toList := by
    decide +kernel
  rcases load_respelled htext hread hotherText hotherRead honce
    (.cons hroot (.cons hsize .nil)) with ⟨same, hfirst, hsecond⟩ | ⟨issue, _, hissue, _⟩
  · obtain rfl := Except.ok.inj (hload.symm.trans hfirst)
    exact ⟨hfirst, hsecond⟩
  · cases hload.symm.trans hissue

end Settings

end PixelFont
