import PixelFont.Proofs.Path
import PixelFont.Proofs.Settings.Acceptance

/-!
Settings written as a structured value read back, which is how workers come by them. Every section
is written with all of its fields, so that no default is taken, and the bounds that accepted
settings keep are those that reading asks for. Main statement: `Settings.ofValue_toValue`.
-/

set_option autoImplicit false

namespace PixelFont

/-! ### Fields -/

/-- A field under the key that a record uses reads as its value does. -/
theorem SettingsKey.read_eq_value {α : Type} {key : SettingsKey}
    {fields : List (String × Value)} {default content : α} {reading : Value → Checked α}
    {name : String} {value : Value} (hfind : key.find? fields = some (name, value))
    (hvalue : reading value = .value content) :
    key.read fields default reading = .value content := by
  rw [read, hfind]
  exact Checked.inside_eq_value_iff.mpr hvalue

namespace Value

theorem readFrom_int {least number : ℕ} (hleast : least ≤ number) :
    (int number).readFrom least = .value number := by
  have hbound : ¬ (number : Int) < least := by omega
  show (if (number : Int) < least then _ else _) = _
  rw [if_neg hbound, Int.toNat_natCast]

theorem readBetween_int {least greatest number : ℕ} (hleast : least ≤ number)
    (hgreatest : number ≤ greatest) :
    (int number).readBetween least greatest = .value number := by
  have hbelow : ¬ (number : Int) < least := by omega
  have habove : ¬ (greatest : Int) < number := by omega
  show (if (number : Int) < least then _ else if (greatest : Int) < number then _ else _) = _
  rw [if_neg hbelow, if_neg habove, Int.toNat_natCast]

theorem readName_text {name : String} (hname : name ≠ "") :
    (text name).readName = .value name := by
  show (if name = "" then _ else _) = _
  rw [if_neg hname]

theorem readVersion_text {version : String} (hversion : isVersion version.toList = true) :
    (text version).readVersion = .value version := by
  show (if isVersion version.toList = true then _ else _) = _
  rw [if_pos hversion]

theorem readPath_toText (path : Path) : (text path.toText).readPath = .value path := by
  rw [readPath, Path.ofString_toText]

theorem items_readPath (number : ℕ) (paths : List Path) :
    Checked.items readPath number (paths.map fun path ↦ text path.toText) = .value paths := by
  induction paths generalizing number with
  | nil => rfl
  | cons path paths ih =>
    rw [List.map_cons, Checked.items, ih, readPath_toText]
    rfl

theorem readOptional_ofOption {α : Type} {write : α → Value} {read : Value → Checked α}
    {content : Option α} (hwrite : ∀ x, write x ≠ null)
    (hread : ∀ x ∈ content, read (write x) = .value x) :
    (ofOption write content).readOptional read = .value content := by
  cases content with
  | none => rfl
  | some x =>
    have hx := hread x rfl
    rw [ofOption, readOptional.eq_2 read _ (hwrite x), hx]
    rfl

end Value

/-! ### Sections -/

theorem Naming.read_toValue {naming : Naming} {model : String} (hfamily : naming.family ≠ "")
    (hversion : Value.isVersion naming.version.toList = true) :
    naming.toValue.readSection model Naming.ofFields = .value naming := by
  show Naming.ofFields _ = _
  rw [Naming.ofFields, SettingsKey.read_eq_value rfl (Value.readName_text hfamily),
    SettingsKey.read_eq_value rfl (Value.readVersion_text hversion)]
  rfl

theorem RasterSize.read_toValue {raster : RasterSize} {model : String} (hwidth : 0 < raster.width)
    (hheight : 0 < raster.height) :
    raster.toValue.readSection model RasterSize.ofFields = .value raster := by
  show RasterSize.ofFields _ = _
  rw [RasterSize.ofFields, SettingsKey.read_eq_value rfl (Value.readFrom_int hwidth),
    SettingsKey.read_eq_value rfl (Value.readFrom_int hheight),
    SettingsKey.read_eq_value rfl (Value.readFrom_int (Nat.zero_le raster.baselineRow))]
  rfl

theorem Metrics.read_toValue {metrics : Metrics} {model : String} (hsize : 0 < metrics.pixelSize) :
    metrics.toValue.readSection model Metrics.ofFields = .value metrics := by
  show Metrics.ofFields _ = _
  rw [Metrics.ofFields, SettingsKey.read_eq_value rfl (Value.readFrom_int hsize),
    SettingsKey.read_eq_value rfl (Value.readFrom_int (Nat.zero_le metrics.ascenderRows)),
    SettingsKey.read_eq_value rfl (Value.readFrom_int (Nat.zero_le metrics.descenderRows)),
    SettingsKey.read_eq_value rfl (Value.readFrom_int (Nat.zero_le metrics.lineGapRows))]
  rfl

theorem WeightClasses.read_toValue {classes : WeightClasses} {model : String}
    (hregular : 1 ≤ classes.regular ∧ classes.regular ≤ 1000)
    (hbold : 1 ≤ classes.bold ∧ classes.bold ≤ 1000) :
    classes.toValue.readSection model WeightClasses.ofFields = .value classes := by
  show WeightClasses.ofFields _ = _
  rw [WeightClasses.ofFields,
    SettingsKey.read_eq_value rfl (Value.readBetween_int hregular.1 hregular.2),
    SettingsKey.read_eq_value rfl (Value.readBetween_int hbold.1 hbold.2)]
  rfl

theorem CorpusRules.read_toValue {rules : CorpusRules} {model : String}
    (hrange : rules.requiredStart ≤ rules.requiredEnd)
    (hend : rules.requiredEnd ≤ Settings.maxCodepoint) :
    rules.toValue.readSection model CorpusRules.ofFields = .value rules := by
  have hstart : rules.requiredStart ≤ Settings.maxCodepoint := Nat.le_trans hrange hend
  have hcheck : rules.check = .value rules := if_neg (Nat.not_lt.mpr hrange)
  show CorpusRules.ofFields _ = _
  rw [CorpusRules.ofFields, SettingsKey.read_eq_value rfl (Value.items_readPath 0 _),
    SettingsKey.read_eq_value rfl (Value.readBetween_int (Nat.zero_le _) hstart),
    SettingsKey.read_eq_value rfl (Value.readBetween_int (Nat.zero_le _) hend)]
  exact hcheck

theorem Processing.read_toValue {processing : Processing} {model : String}
    (hworkers : ∀ count ∈ processing.workers, 0 < count) :
    processing.toValue.readSection model Processing.ofFields = .value processing := by
  show Processing.ofFields _ = _
  rw [Processing.ofFields, SettingsKey.read_eq_value rfl (Value.readOptional_ofOption
    (by simp) fun count hcount ↦ Value.readFrom_int (hworkers count hcount))]
  rfl

theorem LogSettings.read_toValue (log : LogSettings) {model : String} :
    log.toValue.readSection model LogSettings.ofFields = .value log := by
  show LogSettings.ofFields _ = _
  rw [LogSettings.ofFields, SettingsKey.read_eq_value rfl (Value.readOptional_ofOption
    (by simp) fun path _ ↦ Value.readPath_toText path)]
  rfl

/-! ### Settings -/

namespace Settings

/-- Settings within their bounds read back from the value that they give. -/
theorem ofValue_toValue_of_isAccepted {settings : Settings} (haccepted : settings.IsAccepted)
    (hversion : Value.isVersion settings.naming.version.toList = true) :
    ofValue settings.toValue = .value settings := by
  have hcheck : settings.check = .value settings := if_neg (Nat.not_lt.mpr haccepted.baseline_le)
  show ofFields _ = _
  rw [ofFields,
    SettingsKey.read_eq_value rfl (Naming.read_toValue haccepted.family_ne hversion),
    SettingsKey.read_eq_value rfl
      (RasterSize.read_toValue haccepted.width_pos haccepted.height_pos),
    SettingsKey.read_eq_value rfl (Metrics.read_toValue haccepted.pixelSize_pos),
    SettingsKey.read_eq_value rfl
      (WeightClasses.read_toValue haccepted.regular_mem haccepted.bold_mem),
    SettingsKey.read_eq_value rfl
      (CorpusRules.read_toValue haccepted.required_le haccepted.requiredEnd_le),
    SettingsKey.read_eq_value rfl (Processing.read_toValue haccepted.workers_pos),
    SettingsKey.read_eq_value rfl (LogSettings.read_toValue settings.log),
    SettingsKey.read_eq_value rfl (Value.readPath_toText settings.projectRoot)]
  exact hcheck

/-- Settings that were read read back from the value that they give. -/
theorem ofValue_toValue {value : Value} {settings : Settings}
    (hread : ofValue value = .value settings) : ofValue settings.toValue = .value settings :=
  ofValue_toValue_of_isAccepted (isAccepted_of_ofValue hread) (isVersion_of_ofValue hread)

end Settings

end PixelFont
