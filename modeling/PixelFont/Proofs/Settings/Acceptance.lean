import Mathlib.Data.Nat.Notation
import PixelFont.Settings.Record

/-!
Settings that are read keep their bounds. A reading that succeeds is taken apart into the readings
of its fields, each of which gives the default of the field or what the reading of a value gave;
a bound that both keep holds of the field. Main statement: `Settings.isAccepted_of_ofValue`.
-/

set_option autoImplicit false

namespace PixelFont

/-! ### Readings that succeed -/

namespace Checked

variable {α β : Type}

theorem fail_ne_value {fault : SettingsFault} {content : α} : fail fault ≠ .value content := by
  simp [fail]

theorem map_eq_value_iff {f : α → β} {reading : Checked α} {content : β} :
    f <$> reading = .value content ↔ ∃ x, reading = .value x ∧ f x = content := by
  cases reading with
  | value x =>
    show Checked.value (f x) = .value content ↔ _
    simp
  | issues first others =>
    show Checked.issues first others = .value content ↔ _
    simp

theorem seq_eq_value_iff {function : Checked (α → β)} {argument : Checked α} {content : β} :
    function <*> argument = .value content ↔
      ∃ f, function = .value f ∧ ∃ x, argument = .value x ∧ f x = content := by
  show apply function argument = .value content ↔ _
  cases function <;> cases argument <;> simp [apply]

theorem andThen_eq_value_iff {reading : Checked α} {next : α → Checked β} {content : β} :
    reading.andThen next = .value content ↔
      ∃ x, reading = .value x ∧ next x = .value content := by
  cases reading <;> simp [andThen]

theorem inside_eq_value_iff {step : Step} {reading : Checked α} {content : α} :
    reading.inside step = .value content ↔ reading = .value content := by
  cases reading <;> simp [inside]

end Checked

/-- What holds of the default of a field and of all that its reading gives holds of the field. -/
theorem SettingsKey.of_read {α : Type} (property : α → Prop) {key : SettingsKey}
    {fields : List (String × Value)} {default content : α} {reading : Value → Checked α}
    (hdefault : property default)
    (hreading : ∀ value content, reading value = .value content → property content)
    (hread : key.read fields default reading = .value content) : property content := by
  rw [read] at hread
  split at hread
  · exact hreading _ content (Checked.inside_eq_value_iff.mp hread)
  · exact (Checked.value.inj hread) ▸ hdefault

namespace Value

theorem le_of_readFrom {least : ℕ} {value : Value} {number : ℕ}
    (hread : value.readFrom least = .value number) : least ≤ number := by
  obtain ⟨whole, -, hbound⟩ := Checked.andThen_eq_value_iff.mp hread
  split at hbound
  · exact absurd hbound Checked.fail_ne_value
  · rw [← Checked.value.inj hbound]
    omega

theorem mem_of_readBetween {least greatest : ℕ} {value : Value} {number : ℕ}
    (hread : value.readBetween least greatest = .value number) :
    least ≤ number ∧ number ≤ greatest := by
  obtain ⟨whole, -, hbound⟩ := Checked.andThen_eq_value_iff.mp hread
  split at hbound
  · exact absurd hbound Checked.fail_ne_value
  · split at hbound
    · exact absurd hbound Checked.fail_ne_value
    · rw [← Checked.value.inj hbound]
      omega

theorem ne_of_readName {value : Value} {name : String} (hread : value.readName = .value name) :
    name ≠ "" := by
  obtain ⟨text, -, hname⟩ := Checked.andThen_eq_value_iff.mp hread
  split at hname
  · exact absurd hname Checked.fail_ne_value
  · exact (Checked.value.inj hname) ▸ ‹_›

theorem isVersion_of_readVersion {value : Value} {version : String}
    (hread : value.readVersion = .value version) : isVersion version.toList = true := by
  obtain ⟨text, -, hversion⟩ := Checked.andThen_eq_value_iff.mp hread
  split at hversion
  · exact (Checked.value.inj hversion) ▸ ‹_›
  · exact absurd hversion Checked.fail_ne_value

theorem of_readOptional {α : Type} (property : α → Prop) {reading : Value → Checked α}
    (hreading : ∀ value content, reading value = .value content → property content)
    {value : Value} {content : Option α} (hread : value.readOptional reading = .value content) :
    ∀ x ∈ content, property x := by
  rw [readOptional.eq_def] at hread
  split at hread
  · rw [← Checked.value.inj hread]
    exact fun x hx ↦ absurd hx (by simp)
  · obtain ⟨x, hx, rfl⟩ := Checked.map_eq_value_iff.mp hread
    intro y hy
    rw [← Option.some.inj hy]
    exact hreading _ x hx

theorem of_readSection {α : Type} {model : String} {reading : List (String × Value) → Checked α}
    {value : Value} {content : α} (hread : readSection model reading value = .value content) :
    ∃ fields, reading fields = .value content := by
  rw [readSection] at hread
  split at hread
  · exact ⟨_, hread⟩
  · exact absurd hread Checked.fail_ne_value

end Value

/-! ### Sections -/

theorem Naming.of_ofFields {fields : List (String × Value)} {naming : Naming}
    (hread : Naming.ofFields fields = .value naming) :
    naming.family ≠ "" ∧ Value.isVersion naming.version.toList = true := by
  simp only [Naming.ofFields, Checked.seq_eq_value_iff, Checked.map_eq_value_iff] at hread
  obtain ⟨_, ⟨_, ⟨_, ⟨_, ⟨family, hfamily, rfl⟩, version, hversion, rfl⟩, _, _, rfl⟩, _, _, rfl⟩,
    _, _, rfl⟩ := hread
  exact ⟨SettingsKey.of_read (· ≠ "") (by decide) (fun _ _ ↦ Value.ne_of_readName) hfamily,
    SettingsKey.of_read (Value.isVersion ·.toList = true) (by decide)
      (fun _ _ ↦ Value.isVersion_of_readVersion) hversion⟩

theorem RasterSize.of_ofFields {fields : List (String × Value)} {raster : RasterSize}
    (hread : RasterSize.ofFields fields = .value raster) :
    0 < raster.width ∧ 0 < raster.height := by
  simp only [RasterSize.ofFields, Checked.seq_eq_value_iff, Checked.map_eq_value_iff] at hread
  obtain ⟨_, ⟨_, ⟨width, hwidth, rfl⟩, height, hheight, rfl⟩, _, _, rfl⟩ := hread
  exact ⟨SettingsKey.of_read (0 < ·) (by decide) (fun _ _ ↦ Value.le_of_readFrom) hwidth,
    SettingsKey.of_read (0 < ·) (by decide) (fun _ _ ↦ Value.le_of_readFrom) hheight⟩

theorem Metrics.of_ofFields {fields : List (String × Value)} {metrics : Metrics}
    (hread : Metrics.ofFields fields = .value metrics) : 0 < metrics.pixelSize := by
  simp only [Metrics.ofFields, Checked.seq_eq_value_iff, Checked.map_eq_value_iff] at hread
  obtain ⟨_, ⟨_, ⟨_, ⟨size, hsize, rfl⟩, _, _, rfl⟩, _, _, rfl⟩, _, _, rfl⟩ := hread
  exact SettingsKey.of_read (0 < ·) (by decide) (fun _ _ ↦ Value.le_of_readFrom) hsize

theorem WeightClasses.of_ofFields {fields : List (String × Value)} {classes : WeightClasses}
    (hread : WeightClasses.ofFields fields = .value classes) :
    (1 ≤ classes.regular ∧ classes.regular ≤ 1000) ∧ 1 ≤ classes.bold ∧ classes.bold ≤ 1000 := by
  simp only [WeightClasses.ofFields, Checked.seq_eq_value_iff, Checked.map_eq_value_iff] at hread
  obtain ⟨_, ⟨regular, hregular, rfl⟩, bold, hbold, rfl⟩ := hread
  have hread (fields : List (String × Value)) (key : SettingsKey) (default number : ℕ)
      (hdefault : 1 ≤ default ∧ default ≤ 1000)
      (h : key.read fields default (Value.readBetween 1 1000) = .value number) :
      1 ≤ number ∧ number ≤ 1000 :=
    SettingsKey.of_read (fun n ↦ 1 ≤ n ∧ n ≤ 1000) hdefault
      (fun _ _ ↦ Value.mem_of_readBetween) h
  exact ⟨hread _ _ _ _ (by decide) hregular, hread _ _ _ _ (by decide) hbold⟩

theorem CorpusRules.of_ofFields {fields : List (String × Value)} {rules : CorpusRules}
    (hread : CorpusRules.ofFields fields = .value rules) :
    rules.requiredStart ≤ rules.requiredEnd ∧ rules.requiredEnd ≤ Settings.maxCodepoint := by
  obtain ⟨read, hfields, hcheck⟩ := Checked.andThen_eq_value_iff.mp hread
  rw [CorpusRules.check] at hcheck
  split at hcheck
  · exact absurd hcheck Checked.fail_ne_value
  rename_i hrange
  obtain rfl := Checked.value.inj hcheck
  simp only [Checked.seq_eq_value_iff, Checked.map_eq_value_iff] at hfields
  obtain ⟨_, ⟨_, ⟨_, ⟨_, ⟨_, ⟨_, _, rfl⟩, _, _, rfl⟩, stop, hstop, rfl⟩, _, _, rfl⟩, _, _, rfl⟩,
    _, _, rfl⟩ := hfields
  have hbound (value : Value) (number : ℕ)
      (hnumber : value.readBetween 0 Settings.maxCodepoint = .value number) :
      number ≤ Settings.maxCodepoint := (Value.mem_of_readBetween hnumber).2
  exact ⟨Nat.le_of_not_lt hrange,
    SettingsKey.of_read (· ≤ Settings.maxCodepoint) (by decide) hbound hstop⟩

theorem Processing.of_ofFields {fields : List (String × Value)} {processing : Processing}
    (hread : Processing.ofFields fields = .value processing) :
    ∀ count ∈ processing.workers, 0 < count := by
  obtain ⟨workers, hworkers, rfl⟩ := Checked.map_eq_value_iff.mp hread
  exact SettingsKey.of_read (fun workers ↦ ∀ count ∈ workers, 0 < count) (by decide)
    (fun _ _ ↦ Value.of_readOptional (0 < ·) fun _ _ ↦ Value.le_of_readFrom) hworkers

/-! ### Settings -/

namespace Settings

/-- The bounds of the sections hold of settings that are read. -/
theorem of_ofFields {fields : List (String × Value)} {settings : Settings}
    (hread : Settings.ofFields fields = .value settings) :
    settings.IsAccepted ∧ Value.isVersion settings.naming.version.toList = true := by
  obtain ⟨read, hfields, hcheck⟩ := Checked.andThen_eq_value_iff.mp hread
  rw [check] at hcheck
  split at hcheck
  · exact absurd hcheck Checked.fail_ne_value
  rename_i hbaseline
  obtain rfl := Checked.value.inj hcheck
  simp only [Checked.seq_eq_value_iff, Checked.map_eq_value_iff] at hfields
  obtain ⟨_, ⟨_, ⟨_, ⟨_, ⟨_, ⟨_, ⟨_, ⟨naming, hnaming, rfl⟩, raster, hraster, rfl⟩, metrics,
    hmetrics, rfl⟩, weights, hweights, rfl⟩, rules, hrules, rfl⟩, processing, hprocessing, rfl⟩,
    _, _, rfl⟩, _, _, rfl⟩ := hfields
  -- A section is read by its fields, or it is the default one.
  have hsection {α : Type} (property : α → Prop) {key : SettingsKey} {default content : α}
      {model : String} {reading : List (String × Value) → Checked α} (hdefault : property default)
      (hreading : ∀ fields content, reading fields = .value content → property content)
      (h : key.read fields default (Value.readSection model reading) = .value content) :
      property content := by
    refine SettingsKey.of_read property hdefault (fun value content hvalue ↦ ?_) h
    obtain ⟨inner, hinner⟩ := Value.of_readSection hvalue
    exact hreading inner content hinner
  have hnamed := hsection
    (fun naming ↦ naming.family ≠ "" ∧ Value.isVersion naming.version.toList = true)
    (by decide) (fun _ _ ↦ Naming.of_ofFields) hnaming
  have hsized := hsection (fun raster ↦ 0 < raster.width ∧ 0 < raster.height)
    (by decide) (fun _ _ ↦ RasterSize.of_ofFields) hraster
  have hweighed := hsection
    (fun classes ↦ (1 ≤ classes.regular ∧ classes.regular ≤ 1000) ∧
      1 ≤ classes.bold ∧ classes.bold ≤ 1000)
    (by decide) (fun _ _ ↦ WeightClasses.of_ofFields) hweights
  have hruled := hsection
    (fun rules ↦ rules.requiredStart ≤ rules.requiredEnd ∧ rules.requiredEnd ≤ maxCodepoint)
    (by decide) (fun _ _ ↦ CorpusRules.of_ofFields) hrules
  exact ⟨{
    family_ne := hnamed.1
    width_pos := hsized.1
    height_pos := hsized.2
    baseline_le := Nat.le_of_not_lt hbaseline
    pixelSize_pos := hsection (0 < ·.pixelSize) (by decide) (fun _ _ ↦ Metrics.of_ofFields) hmetrics
    regular_mem := hweighed.1
    bold_mem := hweighed.2
    required_le := hruled.1
    requiredEnd_le := hruled.2
    workers_pos := hsection (fun processing ↦ ∀ count ∈ processing.workers, 0 < count)
      (by decide) (fun _ _ ↦ Processing.of_ofFields) hprocessing }, hnamed.2⟩

theorem isAccepted_of_ofValue {value : Value} {settings : Settings}
    (hread : Settings.ofValue value = .value settings) : settings.IsAccepted := by
  obtain ⟨fields, hfields⟩ := Value.of_readSection hread
  exact (of_ofFields hfields).1

theorem isVersion_of_ofValue {value : Value} {settings : Settings}
    (hread : Settings.ofValue value = .value settings) :
    Value.isVersion settings.naming.version.toList = true := by
  obtain ⟨fields, hfields⟩ := Value.of_readSection hread
  exact (of_ofFields hfields).2

/-! ### Rasters of one cell -/

/-- The settings for rasters of one cell and the single required character `A`. -/
def oneCell : Settings :=
  { raster := ⟨1, 1, 1⟩, corpus := { requiredStart := 65, requiredEnd := 65 } }

/-- A record that gives the settings for rasters of one cell. -/
def oneCellRecord : Value :=
  .record [
    ("grid", .record [("width", .int 1), ("height", .int 1), ("baseline_row", .int 1)]),
    ("corpus", .record [("required_start", .int 65), ("required_end", .int 65)])]

theorem ofValue_oneCellRecord : Settings.ofValue oneCellRecord = .value oneCell :=
  rfl

end Settings

end PixelFont
