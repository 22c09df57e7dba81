import PixelFont.Command.Run
import PixelFont.Proofs.FileTree.Access
import PixelFont.Proofs.Json.Limits
import PixelFont.Proofs.Settings.Acceptance
import PixelFont.Proofs.Text.Utf8

/-!
How settings files fail. Whatever is wrong with the JSON of a file, with its fields or with the way
to it is told as an invalid configuration, and settings that are loaded keep their bounds. Three
faults are not looked for: a path that holds the null character, a file that is not UTF-8, and a
text that goes beyond the limits of the reader, be it in the digits of an integer or in the nesting
of lists and records. A command that meets them breaks off (`code_load_notUtf8`). Main statement:
`load_escapes_iff`.
-/

set_option autoImplicit false

namespace PixelFont

/-- Whether a fault of a settings file is told as an invalid configuration. What is not UTF-8, what
is beyond the limits of the reader and what has no path escape. -/
def SettingsFileFault.IsTold : SettingsFileFault → Prop
  | .file fault => fault ≠ .nulCharacter
  | .encoding _ => False
  | .notJson _ => True
  | .beyond _ => False
  | .notRecord => True
  | .invalid _ => True

/-- A command that is given settings with a fault that is told ends with a status of one and one
notice, which names the file and the reason; with any other fault it breaks off. -/
theorem Command.Overrides.refuse_isTold_iff (tree : FileTree) (path : Path)
    (fault : SettingsFileFault) :
    fault.IsTold ↔ refuse tree path fault = {
      notices := [.error ("Invalid configuration: " ++ path.toText) (some fault.reason)]
      ending := Conclusion.failure, tree } := by
  cases fault with
  | file fault => cases fault <;> simp [refuse, SettingsFileFault.IsTold]
  | encoding fault => simp [refuse, SettingsFileFault.IsTold]
  | notJson error => simp [refuse, SettingsFileFault.IsTold]
  | beyond fault => simp [refuse, SettingsFileFault.IsTold]
  | notRecord => simp [refuse, SettingsFileFault.IsTold]
  | invalid issue => simp [refuse, SettingsFileFault.IsTold]

/-- What a file holds is refused exactly if it is not the bytes of a text. -/
theorem GlyphFile.exists_decode_eq_error_iff {content : FileContent} :
    (∃ fault, decode content = .error fault) ↔
      ∀ text, content ≠ .bytes (Text.Utf8.encode text) := by
  cases content with
  | bytes bytes => simp [decode, Text.Utf8.exists_decode_eq_error_iff]
  | font font => simp [decode]

/-- What a file holds is a text exactly if it is the bytes of it. -/
theorem GlyphFile.decode_eq_ok_iff {content : FileContent} {text : List Char} :
    decode content = .ok text ↔ content = .bytes (Text.Utf8.encode text) := by
  cases content with
  | bytes bytes => simp [decode, Text.Utf8.decode_eq_ok_iff]
  | font font => simp [decode]

namespace Settings

variable {limits : Json.Limits} {tree : FileTree} {path : Path}

/-! ### Values and texts -/

theorem of_ofFileValue {value : Value} {settings : Settings}
    (hvalue : ofFileValue path value = .ok settings) :
    settings.IsAccepted ∧ Value.isVersion settings.naming.version.toList = true := by
  unfold ofFileValue at hvalue
  split at hvalue
  · exact absurd hvalue nofun
  · split at hvalue
    · exact absurd hvalue nofun
    · rename_i accepted haccepted
      rw [← Except.ok.inj hvalue]
      exact of_ofFields haccepted

theorem isTold_of_ofFileValue {value : Value} {fault : SettingsFileFault}
    (hvalue : ofFileValue path value = .error fault) : fault.IsTold := by
  unfold ofFileValue at hvalue
  split at hvalue
  · rw [← Except.error.inj hvalue]
    trivial
  · split at hvalue
    · rw [← Except.error.inj hvalue]
      trivial
    · cases hvalue

/-- The text of a file gives a fault that escapes exactly if it goes beyond the limits. -/
theorem ofFileText_escapes_iff {text : List Char} :
    (∃ fault, ofFileText limits path text = .error fault ∧ ¬ fault.IsTold) ↔
      ∃ fault, Json.read limits (unifyLines text) = .error (.beyond fault) := by
  unfold ofFileText
  cases Json.read limits (unifyLines text) with
  | error error => cases error <;> simp [SettingsFileFault.IsTold]
  | ok value =>
    refine iff_of_false ?_ (by simp)
    rintro ⟨fault, hfault, hescapes⟩
    exact hescapes (isTold_of_ofFileValue hfault)

/-- Lines that end in line feeds already are left alone. -/
theorem unifyLines_eq_self {text : List Char} (hreturn : '\r' ∉ text) : unifyLines text = text := by
  fun_induction unifyLines text with
  | case1 => rfl
  | case2 => simp at hreturn
  | case3 c text _ ih =>
    obtain ⟨hc, htext⟩ := not_or.mp (mt List.mem_cons.mpr hreturn)
    rw [if_neg (Ne.symm hc), ih htext]

/-! ### Files -/

/-- Settings that are loaded keep their bounds. -/
theorem of_load {settings : Settings} (hload : load limits tree path = .ok settings) :
    settings.IsAccepted ∧ Value.isVersion settings.naming.version.toList = true := by
  unfold load at hload
  split at hload
  · exact absurd hload nofun
  · exact absurd hload nofun
  · unfold ofFileText at hload
    split at hload
    · exact absurd hload nofun
    · exact absurd hload nofun
    · exact of_ofFileValue hload

/-- From any tree of files and any path, whatever the bytes of the file and the limits of the
reader, settings that are loaded keep their bounds, and any fault is told as an invalid
configuration, unless a name of the path holds the null character, or the file is there and is not
UTF-8 or its text is given up at a limit. In these cases the fault escapes. A text that is given up
at a limit goes beyond it, in the digits of an integer or in the nesting of lists and records. -/
theorem load_escapes_iff (limits : Json.Limits) (tree : FileTree) (path : Path) :
    (∀ settings, load limits tree path = .ok settings →
        settings.IsAccepted ∧ Value.isVersion settings.naming.version.toList = true) ∧
      ((∃ fault, load limits tree path = .error fault ∧ ¬ fault.IsTold) ↔
        (∃ name ∈ path.components, '\x00' ∈ name.toList) ∨
          ∃ content, tree.read path = .ok content ∧
            ((∀ text, content ≠ .bytes (Text.Utf8.encode text)) ∨
              ∃ text fault, content = .bytes (Text.Utf8.encode text) ∧
                Json.read limits (unifyLines text) = .error (.beyond fault))) ∧
      ∀ text fault, Json.read limits text = .error (.beyond fault) →
        Json.Exceeds limits limits.depth text fault := by
  refine ⟨fun settings ↦ of_load, ?_, fun text fault ↦ Json.exceeds_of_read⟩
  rw [← @FileTree.read_eq_nulCharacter_iff tree]
  simp only [← GlyphFile.exists_decode_eq_error_iff, ← GlyphFile.decode_eq_ok_iff]
  unfold load GlyphFile.readText
  cases hread : tree.read path with
  | error fault => simp [SettingsFileFault.IsTold]
  | ok content =>
    cases hdecode : GlyphFile.decode content with
    | error fault => simp [SettingsFileFault.IsTold, hdecode]
    | ok text => simp [hdecode, ofFileText_escapes_iff]

/-- Of four files, one that sets nothing gives the default settings, which keep their bounds. One
that breaks off within a character gives a fault that escapes, and so do one that nests too deeply
and one whose integer is too long. -/
theorem load_escapes_iff_files :
    let deep := List.replicate 996 '['
    let long := List.replicate 4301 '1'
    let holding (bytes : List UInt8) : FileTree :=
      (FileTree.empty []).add ["c.json"] (.file (.bytes bytes))
    let path := Path.ofString "c.json"
    let escapes (bytes : List UInt8) : Prop :=
      ∃ fault, load {} (holding bytes) path = .error fault ∧ ¬ fault.IsTold
    load {} (holding [0x7B, 0x7D]) path = .ok {} ∧ ({} : Settings).IsAccepted ∧
      escapes [0x7B, 0xC3] ∧ escapes (Text.Utf8.encode deep) ∧ escapes (Text.Utf8.encode long) := by
  intro deep long holding path escapes
  have hload : load {} (holding [0x7B, 0x7D]) path = .ok {} := by decide +kernel
  have hread (bytes : List UInt8) : (holding bytes).read path = .ok (.bytes bytes) := rfl
  have hgate (bytes : List UInt8) := load_escapes_iff {} (holding bytes) path
  have hdecode : GlyphFile.decode (.bytes [0x7B, 0xC3]) = .error .unexpectedEnd := by
    decide +kernel
  have hnone := GlyphFile.exists_decode_eq_error_iff.mp ⟨_, hdecode⟩
  have hlines (count : ℕ) (c : Char) (hc : '\r' ≠ c) :
      unifyLines (List.replicate count c) = List.replicate count c :=
    unifyLines_eq_self fun hreturn ↦ hc (List.eq_of_mem_replicate hreturn)
  have hdeep : Json.read {} (unifyLines deep) = .error (.beyond .nestedList) := by
    rw [hlines _ _ (by decide)]
    exact Json.read_replicate_opening
  have hlong : Json.read {} (unifyLines long) = .error (.beyond (.digits 4300 4301)) := by
    rw [hlines _ _ (by decide)]
    exact Json.read_replicate_one rfl
  exact ⟨hload, ((hgate _).1 _ hload).1,
    (hgate _).2.1.mpr (.inr ⟨_, hread _, .inl hnone⟩),
    (hgate _).2.1.mpr (.inr ⟨_, hread _, .inr ⟨_, _, rfl, hdeep⟩⟩),
    (hgate _).2.1.mpr (.inr ⟨_, hread _, .inr ⟨_, _, rfl, hlong⟩⟩)⟩

/-- A settings file whose first byte begins no character gives neither settings nor an invalid
configuration, and the command that reads it breaks off. -/
theorem code_load_notUtf8 :
    let tree := (FileTree.empty []).add ["c.json"] (.file (.bytes [0xFF, 0x7B, 0x7D]))
    (∃ fault, load {} tree (Path.ofString "c.json") = .error fault ∧ ¬ fault.IsTold) ∧
      (Command.run {} tree ["validate", "--config", "c.json"]).ending =
        .broken (.encoding .invalidStart) := by
  intro tree
  have hload : load {} tree (Path.ofString "c.json") = .error (.encoding .invalidStart) := by
    decide +kernel
  refine ⟨⟨_, hload, id⟩, ?_⟩
  decide +kernel

end Settings

end PixelFont
