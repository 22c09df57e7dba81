import PixelFont.Proofs.Settings.Keys

/-!
Readings of settings alike up to the spelling of keys. Two readings are alike if they give the same
value, or the same faults in the same order at places that differ at most in how a key is spelled;
every way in which readings are combined keeps them alike (`Checked.Alike`). So sections whose
fields are read alike are read alike themselves, and fields that are respelled one by one are
(`SettingsKey.readAlike_of_forall₂`).
-/

set_option autoImplicit false

namespace PixelFont

/-! ### Readings alike up to spelling -/

/-- Whether two steps are the same or lead to the same key in two spellings. -/
inductive Step.Alike : Step → Step → Prop where
  | same (step : Step) : Alike step step
  | spelled {key : SettingsKey} (hkey : key ∈ Settings.allKeys) {name other : String}
    (hname : name ∈ key.spellings) (hother : other ∈ key.spellings) :
    Alike (.key name) (.key other)

/-- Whether two issues are of the same fault, at places that differ at most in the spelling of
keys. -/
structure SettingsIssue.Alike (issue other : SettingsIssue) : Prop where
  place : List.Forall₂ Step.Alike issue.place other.place
  fault : issue.fault = other.fault

/-- Issues alike are told in the same words but for the spelling of keys in their places. -/
theorem SettingsIssue.Alike.exists_text_eq {issue other : SettingsIssue}
    (halike : issue.Alike other) :
    ∃ wording, issue.text = ".".intercalate (issue.place.map Step.text) ++ ": " ++ wording ∧
      other.text = ".".intercalate (other.place.map Step.text) ++ ": " ++ wording := by
  refine ⟨issue.fault.message, rfl, ?_⟩
  rw [halike.fault]
  rfl

theorem SettingsIssue.Alike.inside {issue other : SettingsIssue} (halike : issue.Alike other)
    {step another : Step} (hstep : step.Alike another) :
    (issue.inside step).Alike (other.inside another) :=
  ⟨.cons hstep halike.place, halike.fault⟩

namespace Checked

variable {α β : Type}

/-- Whether two readings give the same value or issues alike in the same order. -/
inductive Alike : Checked α → Checked α → Prop where
  | value (content : α) : Alike (.value content) (.value content)
  | issues {first next : SettingsIssue} {rest others : List SettingsIssue}
    (hfirst : first.Alike next) (hrest : List.Forall₂ SettingsIssue.Alike rest others) :
    Alike (.issues first rest) (.issues next others)

namespace Alike

theorem refl (reading : Checked α) : Alike reading reading := by
  have hissue (issue : SettingsIssue) : issue.Alike issue :=
    ⟨List.forall₂_same.mpr fun step _ ↦ .same step, rfl⟩
  cases reading with
  | value content => exact .value content
  | issues first others =>
    exact .issues (hissue first) (List.forall₂_same.mpr fun issue _ ↦ hissue issue)

variable {reading other : Checked α}

theorem map (halike : Alike reading other) (f : α → β) : Alike (f <$> reading) (f <$> other) := by
  cases halike with
  | value content => exact .value (f content)
  | issues hfirst hrest => exact .issues hfirst hrest

theorem seq {function another : Checked (α → β)} (hfunction : Alike function another)
    (halike : Alike reading other) : Alike (function <*> reading) (another <*> other) := by
  cases hfunction with
  | value f =>
    cases halike with
    | value content => exact .value (f content)
    | issues hfirst hrest => exact .issues hfirst hrest
  | issues hfirst hrest =>
    cases halike with
    | value content => exact .issues hfirst hrest
    | issues hnext hmore => exact .issues hfirst (List.rel_append hrest (.cons hnext hmore))

theorem andThen (halike : Alike reading other) (next : α → Checked β) :
    Alike (reading.andThen next) (other.andThen next) := by
  cases halike with
  | value content => exact refl (next content)
  | issues hfirst hrest => exact .issues hfirst hrest

theorem inside (halike : Alike reading other) {step another : Step} (hstep : step.Alike another) :
    Alike (reading.inside step) (other.inside another) := by
  cases halike with
  | value content => exact .value content
  | issues hfirst hrest =>
    refine .issues (hfirst.inside hstep) ?_
    exact List.forall₂_map_left_iff.mpr (List.forall₂_map_right_iff.mpr
      (hrest.imp fun _ _ hissue ↦ hissue.inside hstep))

end Alike

end Checked

namespace SettingsKey

section FoundAlike

variable {α : Type} {key : SettingsKey} {fields others : List (String × Value)}

/-- A field found in either record is read alike if its values are. -/
theorem FoundAlike.read {values : Value → Value → Prop}
    (hfound : key.FoundAlike values fields others) (hkey : key ∈ Settings.allKeys) (default : α)
    {reading : Value → Checked α}
    (hreading : ∀ value other, values value other → (reading value).Alike (reading other)) :
    (key.read fields default reading).Alike (key.read others default reading) := by
  unfold FoundAlike at hfound
  unfold SettingsKey.read
  generalize key.find? fields = field at hfound ⊢
  generalize key.find? others = other at hfound ⊢
  cases hfound with
  | none => exact .value default
  | some hpair =>
    obtain ⟨hname, hother, hvalues⟩ := hpair
    exact (hreading _ _ hvalues).inside (.spelled hkey hname hother)

theorem FoundAlike.read_of_eq (hfound : key.FoundAlike Eq fields others)
    (hkey : key ∈ Settings.allKeys) (default : α) (reading : Value → Checked α) :
    (key.read fields default reading).Alike (key.read others default reading) := by
  refine hfound.read hkey default fun value other hvalue ↦ ?_
  rw [hvalue]
  exact .refl _

end FoundAlike

/-- Whether the fields of some keys are read alike from two records, whatever is asked of them. -/
def ReadAlike (keys : List SettingsKey) (fields others : List (String × Value)) : Prop :=
  ∀ key ∈ keys, ∀ ⦃α : Type⦄ (default : α) (reading : Value → Checked α),
    (key.read fields default reading).Alike (key.read others default reading)

end SettingsKey

/-! ### Sections -/

section Sections

variable {fields others : List (String × Value)}

theorem Naming.ofFields_alike (hread : SettingsKey.ReadAlike Naming.keys fields others) :
    (Naming.ofFields fields).Alike (Naming.ofFields others) := by
  refine .seq (.seq (.seq (.seq (.map ?_ _) ?_) ?_) ?_) ?_
  · exact hread .familyName (by decide) _ _
  · exact hread .version (by decide) _ _
  · exact hread .description (by decide) _ _
  · exact hread .designer (by decide) _ _
  · exact hread .url (by decide) _ _

theorem RasterSize.ofFields_alike (hread : SettingsKey.ReadAlike RasterSize.keys fields others) :
    (RasterSize.ofFields fields).Alike (RasterSize.ofFields others) := by
  refine .seq (.seq (.map ?_ _) ?_) ?_
  · exact hread .width (by decide) _ _
  · exact hread .height (by decide) _ _
  · exact hread .baselineRow (by decide) _ _

theorem Metrics.ofFields_alike (hread : SettingsKey.ReadAlike Metrics.keys fields others) :
    (Metrics.ofFields fields).Alike (Metrics.ofFields others) := by
  refine .seq (.seq (.seq (.map ?_ _) ?_) ?_) ?_
  · exact hread .pixelSize (by decide) _ _
  · exact hread .ascender (by decide) _ _
  · exact hread .descender (by decide) _ _
  · exact hread .lineGap (by decide) _ _

theorem WeightClasses.ofFields_alike
    (hread : SettingsKey.ReadAlike WeightClasses.keys fields others) :
    (WeightClasses.ofFields fields).Alike (WeightClasses.ofFields others) := by
  refine .seq (.map ?_ _) ?_
  · exact hread .regular (by decide) _ _
  · exact hread .bold (by decide) _ _

theorem CorpusRules.ofFields_alike (hread : SettingsKey.ReadAlike CorpusRules.keys fields others) :
    (CorpusRules.ofFields fields).Alike (CorpusRules.ofFields others) := by
  refine .andThen ?_ CorpusRules.check
  refine .seq (.seq (.seq (.seq (.seq (.map ?_ _) ?_) ?_) ?_) ?_) ?_
  · exact hread .glyphDirs (by decide) _ _
  · exact hread .requiredStart (by decide) _ _
  · exact hread .requiredEnd (by decide) _ _
  · exact hread .ligatures (by decide) _ _
  · exact hread .deriveBold (by decide) _ _
  · exact hread .missingReference (by decide) _ _

theorem Processing.ofFields_alike (hread : SettingsKey.ReadAlike Processing.keys fields others) :
    (Processing.ofFields fields).Alike (Processing.ofFields others) :=
  .map (hread .maxWorkers (by decide) _ _) _

theorem LogSettings.ofFields_alike (hread : SettingsKey.ReadAlike LogSettings.keys fields others) :
    (LogSettings.ofFields fields).Alike (LogSettings.ofFields others) := by
  refine .seq (.seq (.map ?_ _) ?_) ?_
  · exact hread .logFile (by decide) _ _
  · exact hread .logLevel (by decide) _ _
  · exact hread .fileLogLevel (by decide) _ _

end Sections

/-! ### Fields respelled -/

/-- Whether two fields of a record give the same value under names that are the same or spell the
same key of a group. -/
def SettingsKey.RespelledField (keys : List SettingsKey) (field other : String × Value) : Prop :=
  SettingsKey.Alike keys field.1 other.1 ∧ field.2 = other.2

/-- Whether two values are read alike as a section of given keys. -/
def Value.SectionAlike (keys : List SettingsKey) (value other : Value) : Prop :=
  ∀ ⦃α : Type⦄ (model : String) (reading : List (String × Value) → Checked α),
    (∀ {fields others : List (String × Value)}, SettingsKey.ReadAlike keys fields others →
      (reading fields).Alike (reading others)) →
    (value.readSection model reading).Alike (other.readSection model reading)

section Fields

variable {keys : List SettingsKey} {fields others : List (String × Value)}

/-- Fields that are respelled one by one are read alike. -/
theorem SettingsKey.readAlike_of_forall₂ (hkeys : ∀ key ∈ keys, key ∈ Settings.allKeys)
    (htold : SettingsKey.AreTold keys) (hfields : SettingsKey.IsUnambiguous keys fields)
    (hrespelled : List.Forall₂ (SettingsKey.RespelledField keys) fields others) :
    SettingsKey.ReadAlike keys fields others := by
  intro key hkey α default reading
  have hfound : key.FoundAlike Eq fields others :=
    SettingsKey.foundAlike_of_forall₂ hfields htold hrespelled (fun _ _ hpair ↦ hpair.1) hkey
      fun _ _ _ hpair _ ↦ hpair.2
  exact hfound.read_of_eq (hkeys key hkey) default reading

theorem Value.SectionAlike.refl (value : Value) : Value.SectionAlike keys value value :=
  fun _ _ _ _ ↦ .refl _

theorem Value.sectionAlike_record (hread : SettingsKey.ReadAlike keys fields others) :
    Value.SectionAlike keys (.record fields) (.record others) :=
  fun _ _ _ hreading ↦ hreading hread

end Fields

end PixelFont
