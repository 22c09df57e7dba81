import Mathlib.Data.List.Forall2
import Mathlib.Data.List.Pairwise
import PixelFont.Proofs.Json.DistinctKeys
import PixelFont.Settings.Record

/-!
The keys of settings and what a record gives under them. Spellings tell the keys of a group, so that
a field is of one key at most. Where no key is given in both spellings a record has at most one
field of a key, and that field is the one found (`SettingsKey.IsUnambiguous.find?_eq_some_iff`); in
what order the spellings are tried makes no difference then. Fields that are respelled one by one
are found again (`SettingsKey.foundAlike_of_forall₂`).
-/

set_option autoImplicit false

namespace PixelFont

/-! ### The keys -/

/-- The spellings of a key. -/
def SettingsKey.spellings (key : SettingsKey) : List String :=
  [key.capitals, key.lowLines]

/-- The keys of a section on naming. -/
def Naming.keys : List SettingsKey :=
  [.familyName, .version, .description, .designer, .url]

/-- The keys of a section on the size of a raster. -/
def RasterSize.keys : List SettingsKey :=
  [.width, .height, .baselineRow]

/-- The keys of a section on metrics. -/
def Metrics.keys : List SettingsKey :=
  [.pixelSize, .ascender, .descender, .lineGap]

/-- The keys of a section on weight classes. -/
def WeightClasses.keys : List SettingsKey :=
  [.regular, .bold]

/-- The keys of a section on the corpus. -/
def CorpusRules.keys : List SettingsKey :=
  [.glyphDirs, .requiredStart, .requiredEnd, .ligatures, .deriveBold, .missingReference]

/-- The keys of a section on how the work is done. -/
def Processing.keys : List SettingsKey :=
  [.maxWorkers]

/-- The keys of a section on what is logged. -/
def LogSettings.keys : List SettingsKey :=
  [.logFile, .logLevel, .fileLogLevel]

namespace Settings

/-- The sections with their keys. -/
def sections : List (SettingsKey × List SettingsKey) :=
  [(.font, Naming.keys), (.grid, RasterSize.keys), (.metrics, Metrics.keys),
    (.weights, WeightClasses.keys), (.corpus, CorpusRules.keys), (.processing, Processing.keys),
    (.logging, LogSettings.keys)]

/-- The keys of a record of settings. -/
def keys : List SettingsKey :=
  sections.map (·.1) ++ [SettingsKey.projectRoot]

/-- The keys of a record of settings and of its sections. -/
def allKeys : List SettingsKey :=
  keys ++ sections.flatMap (·.2)

end Settings

namespace SettingsKey

variable {keys : List SettingsKey} {key : SettingsKey}

/-- Whether the keys of a group are told by either of their spellings. -/
def AreTold (keys : List SettingsKey) : Prop :=
  ∀ key ∈ keys, ∀ other ∈ keys, ∀ name ∈ key.spellings, name ∈ other.spellings → key = other

instance : Decidable (AreTold keys) :=
  inferInstanceAs (Decidable (∀ key ∈ keys, ∀ other ∈ keys, ∀ name ∈ key.spellings,
    name ∈ other.spellings → key = other))

theorem areTold_keys : AreTold Settings.keys := by
  decide

theorem areTold_of_mem_sections {group : SettingsKey × List SettingsKey}
    (hgroup : group ∈ Settings.sections) : AreTold group.2 := by
  have hall : ∀ group ∈ Settings.sections, AreTold group.2 := by decide
  exact hall group hgroup

/-! ### Fields found -/

variable {fields : List (String × Value)} {field other : String × Value}

/-- Whether a record gives no key of a group in both spellings. -/
def GivesOnce (keys : List SettingsKey) (fields : List (String × Value)) : Prop :=
  ∀ key ∈ keys, ∀ field ∈ fields, ∀ other ∈ fields,
    field.1 ∈ key.spellings → other.1 ∈ key.spellings → field.1 = other.1

instance : Decidable (GivesOnce keys fields) :=
  inferInstanceAs (Decidable (∀ key ∈ keys, ∀ field ∈ fields, ∀ other ∈ fields,
    field.1 ∈ key.spellings → other.1 ∈ key.spellings → field.1 = other.1))

/-- Whether no two fields of a record are of the same key of a group. -/
def IsUnambiguous (keys : List SettingsKey) (fields : List (String × Value)) : Prop :=
  fields.Pairwise fun field other ↦
    ∀ key ∈ keys, field.1 ∈ key.spellings → other.1 ∉ key.spellings

/-- Where the names of the fields are distinct, a key of which there are two fields is given in both
spellings. -/
theorem GivesOnce.isUnambiguous (honce : GivesOnce keys fields)
    (hdistinct : (fields.map (·.1)).Nodup) : IsUnambiguous keys fields := by
  refine (List.pairwise_map.mp hdistinct).imp_of_mem fun hfield hother hne key hkey hname ↦ ?_
  exact fun hsame ↦ hne (honce key hkey _ hfield _ hother hname hsame)

namespace IsUnambiguous

theorem eq_of_mem (hfields : IsUnambiguous keys fields) (hkey : key ∈ keys)
    (hfield : field ∈ fields) (hother : other ∈ fields) (hname : field.1 ∈ key.spellings)
    (hsame : other.1 ∈ key.spellings) : field = other := by
  let apart (field other : String × Value) : Prop :=
    ∀ key ∈ keys, field.1 ∈ key.spellings → other.1 ∉ key.spellings
  have hsymm : Std.Symm apart :=
    ⟨fun _ _ happart key hkey hother hfield ↦ happart key hkey hfield hother⟩
  have hpairwise : fields.Pairwise apart := hfields
  by_contra hne
  exact hpairwise.forall hfield hother hne key hkey hname hsame

/-- A name is looked up as the field that has it. -/
theorem lookup?_eq_some (hfields : IsUnambiguous keys fields) (hkey : key ∈ keys)
    (hfield : field ∈ fields) (hname : field.1 ∈ key.spellings) :
    Value.lookup? fields field.1 = some field.2 := by
  cases hlookup : Value.lookup? fields field.1 with
  | none => exact absurd rfl (Value.lookup?_eq_none_iff.mp hlookup field hfield)
  | some content =>
    have hfound := Value.mem_of_lookup?_eq_some hlookup
    rw [hfields.eq_of_mem hkey hfield hfound hname hname]

/-- Under a key the only field of that key is found. -/
theorem find?_eq_some_iff (hfields : IsUnambiguous keys fields) (hkey : key ∈ keys) :
    key.find? fields = some field ↔ field ∈ fields ∧ field.1 ∈ key.spellings := by
  unfold find?
  constructor
  · intro hfind
    split at hfind
    · rename_i content hlookup
      rw [← Option.some.inj hfind]
      exact ⟨Value.mem_of_lookup?_eq_some hlookup, by simp [spellings]⟩
    · obtain ⟨content, hlookup, rfl⟩ := Option.map_eq_some_iff.mp hfind
      exact ⟨Value.mem_of_lookup?_eq_some hlookup, by simp [spellings]⟩
  · rintro ⟨hfield, hname⟩
    have hlookup := hfields.lookup?_eq_some hkey hfield hname
    split
    · rename_i content hcapitals
      have hfound := Value.mem_of_lookup?_eq_some hcapitals
      rw [hfields.eq_of_mem hkey hfield hfound hname (by simp [spellings])]
    · rename_i hnone
      have hne : field.1 ≠ key.capitals := Value.lookup?_eq_none_iff.mp hnone field hfield
      have hlow : field.1 = key.lowLines := by simpa [spellings, hne] using hname
      rw [← hlow, hlookup]
      rfl

end IsUnambiguous

/-! ### Fields respelled -/

/-- Whether two names are the same or spell the same key of a group. -/
def Alike (keys : List SettingsKey) (name other : String) : Prop :=
  name = other ∨ ∃ key ∈ keys, name ∈ key.spellings ∧ other ∈ key.spellings

theorem Alike.mem_spellings_iff {name other : String} (halike : Alike keys name other)
    (htold : AreTold keys) (hkey : key ∈ keys) : name ∈ key.spellings ↔ other ∈ key.spellings := by
  rcases halike with rfl | ⟨common, hcommon, hname, hother⟩
  · rfl
  · constructor
    · intro hspelled
      rwa [htold key hkey common hcommon name hspelled hname]
    · intro hspelled
      rwa [htold key hkey common hcommon other hspelled hother]

/-- Whether two records give fields of a key, if they do, of which the values are related. -/
def FoundAlike (key : SettingsKey) (related : Value → Value → Prop)
    (fields others : List (String × Value)) : Prop :=
  Option.Rel (fun field other ↦
    field.1 ∈ key.spellings ∧ other.1 ∈ key.spellings ∧ related field.2 other.2)
    (key.find? fields) (key.find? others)

theorem exists_mem_of_forall₂ {α β : Type} {related : α → β → Prop} {items : List α}
    {others : List β} (hrelated : List.Forall₂ related items others) {item : α}
    (hitem : item ∈ items) : ∃ other ∈ others, related item other := by
  induction hrelated with
  | nil => exact absurd hitem List.not_mem_nil
  | cons hfirst _ ih =>
    rcases List.mem_cons.mp hitem with rfl | hrest
    · exact ⟨_, List.mem_cons_self, hfirst⟩
    · obtain ⟨other, hother, hpair⟩ := ih hrest
      exact ⟨other, List.mem_cons_of_mem _ hother, hpair⟩

variable {others : List (String × Value)} {related : String × Value → String × Value → Prop}

/-- Respelling keeps the fields of different keys apart. -/
theorem IsUnambiguous.of_forall₂ (hfields : IsUnambiguous keys fields) (htold : AreTold keys)
    (hrelated : List.Forall₂ related fields others)
    (halike : ∀ field other, related field other → Alike keys field.1 other.1) :
    IsUnambiguous keys others := by
  induction hrelated with
  | nil => exact List.Pairwise.nil
  | cons hfirst hrest ih =>
    obtain ⟨happart, hlater⟩ := List.pairwise_cons.mp hfields
    refine List.pairwise_cons.mpr ⟨fun other hother key hkey hname ↦ ?_, ih hlater⟩
    obtain ⟨field, hfield, hpair⟩ := exists_mem_of_forall₂ hrest.flip hother
    have hbefore := ((halike _ _ hfirst).mem_spellings_iff htold hkey).mpr hname
    exact fun hsame ↦ happart field hfield key hkey hbefore
      (((halike _ _ hpair).mem_spellings_iff htold hkey).mpr hsame)

/-- Fields that are respelled one by one are found under the same keys. -/
theorem foundAlike_of_forall₂ {values : Value → Value → Prop} (hfields : IsUnambiguous keys fields)
    (htold : AreTold keys) (hrelated : List.Forall₂ related fields others)
    (halike : ∀ field other, related field other → Alike keys field.1 other.1) (hkey : key ∈ keys)
    (hvalues : ∀ field ∈ fields, ∀ other, related field other → field.1 ∈ key.spellings →
      values field.2 other.2) : key.FoundAlike values fields others := by
  -- What is found in one record has a counterpart in the other, the only field of the key there.
  have hothers := hfields.of_forall₂ htold hrelated halike
  unfold FoundAlike
  cases hfind : key.find? fields with
  | none =>
    cases hfindOther : key.find? others with
    | none => exact .none
    | some other =>
      obtain ⟨hother, hname⟩ := (hothers.find?_eq_some_iff hkey).mp hfindOther
      obtain ⟨field, hfield, hpair⟩ := exists_mem_of_forall₂ hrelated.flip hother
      have hspelled := ((halike _ _ hpair).mem_spellings_iff htold hkey).mpr hname
      have hfound := (hfields.find?_eq_some_iff hkey).mpr ⟨hfield, hspelled⟩
      exact absurd (hfind.symm.trans hfound) nofun
  | some field =>
    obtain ⟨hfield, hname⟩ := (hfields.find?_eq_some_iff hkey).mp hfind
    obtain ⟨other, hother, hpair⟩ := exists_mem_of_forall₂ hrelated hfield
    have hspelled := ((halike _ _ hpair).mem_spellings_iff htold hkey).mp hname
    rw [(hothers.find?_eq_some_iff hkey).mpr ⟨hother, hspelled⟩]
    exact .some ⟨hname, hspelled, hvalues field hfield other hpair hname⟩

end SettingsKey

end PixelFont
