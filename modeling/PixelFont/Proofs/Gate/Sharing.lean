import Mathlib.Data.List.Forall2
import Mathlib.Data.List.Nodup
import Mathlib.Data.List.Sort
import Mathlib.Data.Prod.Basic
import Mathlib.Order.Defs.LinearOrder
import PixelFont.Proofs.Gate.DisabledLigatures

/-!
What the gate says of glyphs that share a codepoint or a label. The errors on it are told from all
others by their wording (`Sharing.isToldBy_issue`). Grouping the glyphs by a key gives one finding
for each key that is due and none twice (`tellOneByOne_groups`), and the finding names the glyphs
of the key, all of them and in their order. Main statement: `sharing_toldOneByOne`.
-/

set_option autoImplicit false

namespace PixelFont

/-! ### Wordings -/

/-- What glyphs share that are in each other's way. -/
inductive Sharing where
  | codepoint
  | ligatureLabel
  | label
  deriving DecidableEq, Repr

/-- What an error on a shared thing says behind the weight. -/
def Sharing.wording : Sharing → String
  | codepoint => " codepoint "
  | ligatureLabel => " ligature label '"
  | label => " label '"

/-- Whether an issue is worded as an error on a shared thing. -/
def Sharing.isToldBy (sharing : Sharing) (issue : Issue) : Bool :=
  [Weight.regular, .bold].any fun weight ↦
    ("Duplicate " ++ weight.name ++ sharing.wording).toList.isPrefixOf issue.message.toList

namespace Defect

variable {defect : Defect}

/-- What a defect says to be shared. -/
def sharing? : Defect → Option Sharing
  | sharedCodepoint _ _ => some .codepoint
  | sharedLigatureLabel _ _ => some .ligatureLabel
  | sharedLabel _ _ _ => some .label
  | _ => none

theorem sharing?_of_isOfGlyph (hglyph : defect.isOfGlyph = true) : defect.sharing? = none := by
  cases defect with
  | sharedCodepoint | sharedLigatureLabel | sharedLabel => exact absurd hglyph Bool.false_ne_true
  | _ => rfl

theorem severity_of_sharing? {sharing : Sharing} (hdefect : defect.sharing? = some sharing) :
    defect.severity = .error := by
  cases defect with
  | sharedCodepoint | sharedLigatureLabel | sharedLabel => rfl
  | _ => exact absurd hdefect nofun

/-- An error on a shared thing says what is shared behind the weight. -/
theorem exists_message_eq {sharing : Sharing} (hdefect : defect.sharing? = some sharing) :
    ∃ (weight : Weight) (rest : String),
      defect.message = "Duplicate " ++ weight.name ++ sharing.wording ++ rest := by
  cases defect with
  | sharedCodepoint weight =>
    obtain rfl := Option.some.inj hdefect
    exact ⟨weight, _, String.append_assoc⟩
  | sharedLigatureLabel weight label =>
    obtain rfl := Option.some.inj hdefect
    exact ⟨weight, label ++ _, String.append_assoc⟩
  | sharedLabel weight label codepoints =>
    obtain rfl := Option.some.inj hdefect
    refine ⟨weight, label ++ "' used by " ++ ", ".intercalate (codepoints.map codepointText) ++
      ". Ligature components cannot tell them apart.", ?_⟩
    delta Defect.message
    simp only [String.append_assoc]
    rfl
  | _ => exact absurd hdefect nofun

theorem head?_append_ne {opening rest : String} {first other : Char}
    (hopening : opening.toList.head? = some first) (hne : first ≠ other) :
    (opening ++ rest).toList.head? ≠ some other := by
  rw [String.toList_append, List.head?_append, hopening, Option.some_or, ne_eq,
    Option.some.injEq]
  exact hne

/-- Whatever else is wrong is worded otherwise from the first letter on. -/
theorem head?_message_ne (hdefect : defect.sharing? = none) :
    defect.message.toList.head? ≠ some 'D' := by
  cases defect with
  | sharedCodepoint | sharedLigatureLabel | sharedLabel => exact absurd hdefect nofun
  | ligaturesDisabled | noCodepoint | noComponents => decide
  | _ =>
    delta Defect.message
    simp only [String.append_assoc]
    exact head?_append_ne rfl (by decide)

end Defect

namespace Sharing

/-- The three wordings differ from one another. -/
theorem isToldBy_duplicate (sharing told : Sharing) (weight : Weight) (rest source : String)
    (severity : Severity) :
    sharing.isToldBy ⟨source, "Duplicate " ++ weight.name ++ told.wording ++ rest, severity⟩ =
      (told == sharing) := by
  rw [isToldBy]
  simp only [String.toList_append]
  cases sharing <;> cases told <;> cases weight <;> rfl

/-- The wording of a finding on a shared thing is that of no other finding. -/
theorem isToldBy_issue (sharing : Sharing) (finding : Finding) :
    sharing.isToldBy finding.issue = (finding.defect.sharing? == some sharing) := by
  obtain ⟨source, defect⟩ := finding
  cases htold : defect.sharing? with
  | some told =>
    obtain ⟨weight, rest, hmessage⟩ := Defect.exists_message_eq htold
    rw [Finding.issue, hmessage, isToldBy_duplicate]
    rfl
  | none =>
    refine List.any_eq_false.mpr fun weight _ hopening ↦ Defect.head?_message_ne htold ?_
    obtain ⟨rest, hrest⟩ := List.isPrefixOf_iff_prefix.mp hopening
    show (Finding.issue ⟨source, defect⟩).message.toList.head? = some 'D'
    rw [← hrest, String.append_assoc, String.toList_append]
    rfl

end Sharing

/-- The thing that glyphs of one kind and one label share. -/
def Sharing.ofKind : GlyphKind → Sharing
  | .ligature => .ligatureLabel
  | .standalone => .label

theorem Sharing.ofKind_injective : Function.Injective Sharing.ofKind := by
  rintro (_ | _) (_ | _) <;> decide

/-- Whether a finding is one on a shared thing. -/
def Finding.isOn (finding : Finding) (sharing : Sharing) : Bool :=
  finding.defect.sharing? == some sharing

namespace Gate

/-! ### Keys that are due -/

/-- The issues tell of the keys that are due, each of one and no two of the same. -/
def TellOneByOne {κ β : Type} (isDue : κ → Prop) (tells : κ → β → Prop) (issues : List β) : Prop :=
  ∃ keys : List κ, keys.Nodup ∧ (∀ key, key ∈ keys ↔ isDue key) ∧
    List.Forall₂ tells keys issues

section Keys

variable {α β γ κ : Type}

/-- What distinct keys give tells of the keys that give anything. -/
theorem tellOneByOne_filterMap {give? : κ → Option β} {keys : List κ} (hkeys : keys.Nodup)
    (hall : ∀ key, (give? key).isSome → key ∈ keys) :
    TellOneByOne (fun key ↦ (give? key).isSome) (fun key given ↦ give? key = some given)
      (keys.filterMap give?) := by
  refine ⟨keys.filter fun key ↦ (give? key).isSome, hkeys.filter _, fun key ↦ ?_, ?_⟩
  · rw [List.mem_filter]
    exact ⟨And.right, fun hgives ↦ ⟨hall key hgives, hgives⟩⟩
  · clear hkeys hall
    induction keys with
    | nil => exact List.Forall₂.nil
    | cons key keys ih =>
      cases hgive : give? key with
      | none => simpa [hgive] using ih
      | some given =>
        simp only [List.filter_cons, List.filterMap_cons, hgive]
        exact List.Forall₂.cons hgive ih

theorem TellOneByOne.imp {isDue isAsked : κ → Prop} {tells states : κ → β → Prop} {issues : List β}
    (htold : TellOneByOne isDue tells issues) (hdue : ∀ key, isDue key ↔ isAsked key)
    (htells : ∀ key issue, tells key issue → states key issue) :
    TellOneByOne isAsked states issues := by
  obtain ⟨keys, hkeys, hmem, hissues⟩ := htold
  refine ⟨keys, hkeys, fun key ↦ (hmem key).trans (hdue key), ?_⟩
  exact hissues.imp fun key issue ↦ htells key issue

theorem TellOneByOne.map {isDue : κ → Prop} {tells : κ → β → Prop} {issues : List β} (f : β → γ)
    (htold : TellOneByOne isDue tells issues) :
    TellOneByOne isDue (fun key told ↦ ∃ issue, tells key issue ∧ f issue = told)
      (issues.map f) := by
  obtain ⟨keys, hkeys, hmem, hissues⟩ := htold
  refine ⟨keys, hkeys, hmem, List.forall₂_map_right_iff.mpr ?_⟩
  exact hissues.imp fun key issue htells ↦ ⟨issue, htells, rfl⟩

/-- Issues that tell of the keys with a certain first part tell of the second parts. -/
theorem TellOneByOne.snd (first : γ) {isDue : κ → Prop} {tells : κ → β → Prop} {issues : List β}
    (htold : TellOneByOne (fun key : γ × κ ↦ key.1 = first ∧ isDue key.2)
      (fun key ↦ tells key.2) issues) :
    TellOneByOne isDue tells issues := by
  obtain ⟨keys, hkeys, hmem, hissues⟩ := htold
  obtain ⟨seconds, rfl⟩ : ∃ seconds : List κ, seconds.map (Prod.mk first) = keys := by
    refine ⟨keys.map Prod.snd, ?_⟩
    rw [List.map_map]
    refine (List.map_congr_left fun key hkey ↦ ?_).trans (List.map_id keys)
    exact Prod.ext ((hmem key).mp hkey).1.symm rfl
  rw [List.forall₂_map_left_iff] at hissues
  refine ⟨seconds, hkeys.of_map _, fun key ↦ ?_, hissues⟩
  rw [← List.mem_map_of_injective (Prod.mk_right_injective first), hmem]
  exact and_iff_right rfl

/-- Of the findings on groups, those that are kept tell of the keys whose groups give one. -/
theorem tellOneByOne_groups [BEq κ] [LawfulBEq κ] (key : α → Option κ)
    (finding? : κ × List α → Option β) (hempty : ∀ k, finding? (k, []) = none) (keep : β → Bool)
    (items : List α) :
    let give? (k : κ) := (finding? (k, items.filter fun item ↦ key item == some k)).filter keep
    TellOneByOne (fun k ↦ (give? k).isSome) (fun k finding ↦ give? k = some finding)
      (((groups key items).filterMap finding?).filter keep) := by
  intro give?
  have hgive : ((groups key items).filterMap finding?).filter keep =
      (items.filterMap key).eraseDups.filterMap give? := by
    rw [List.filter_filterMap, groups, List.filterMap_map]
    rfl
  rw [hgive]
  refine tellOneByOne_filterMap (Grouping.nodup_eraseDups _) fun k hgives ↦ ?_
  rw [List.mem_eraseDups, List.mem_filterMap]
  -- A key that no item has stands for the empty group.
  by_contra hnone
  have hgroup : items.filter (fun item ↦ key item == some k) = [] := by
    refine List.filter_eq_nil_iff.mpr fun item hitem hkey ↦ hnone ⟨item, hitem, ?_⟩
    exact beq_iff_eq.mp hkey
  simp [give?, hgroup, hempty] at hgives

end Keys

/-! ### Findings on groups -/

/-- A character of a codepoint, drawn in a weight. -/
def IsCharacterOf (codepoint : Int) (weight : Weight) (glyph : Glyph) : Prop :=
  glyph.isLigature = false ∧ glyph.codepoint = some codepoint ∧ glyph.weight = weight

instance (codepoint : Int) (weight : Weight) : DecidablePred (IsCharacterOf codepoint weight) :=
  fun _ ↦ inferInstanceAs (Decidable (_ ∧ _ ∧ _))

/-- A glyph of a kind and a label, drawn in a weight. -/
def IsNamed (kind : GlyphKind) (label : String) (weight : Weight) (glyph : Glyph) : Prop :=
  glyph.kind = kind ∧ glyph.label = label ∧ glyph.weight = weight

instance (kind : GlyphKind) (label : String) (weight : Weight) :
    DecidablePred (IsNamed kind label weight) :=
  fun _ ↦ inferInstanceAs (Decidable (_ ∧ _ ∧ _))

variable {view : Viewpoint} {glyphs : List Glyph}

theorem filter_codepointKey (codepoint : Int) (weight : Weight) :
    (glyphs.filter fun glyph ↦ codepointKey glyph == some (codepoint, weight)) =
      glyphs.filter (IsCharacterOf codepoint weight ·) := by
  refine List.filter_congr fun glyph _ ↦ ?_
  rw [Bool.eq_iff_iff, beq_iff_eq, decide_eq_true_iff, codepointKey_eq_some_iff,
    encoding?_eq_some_iff, and_assoc, IsCharacterOf]

theorem filter_labelKey (kind : GlyphKind) (label : String) (weight : Weight) :
    (glyphs.filter fun glyph ↦ labelKey glyph == some (kind, label, weight)) =
      glyphs.filter (IsNamed kind label weight ·) := by
  refine List.filter_congr fun glyph _ ↦ ?_
  rw [Bool.eq_iff_iff, beq_iff_eq, decide_eq_true_iff, labelKey_eq_some_iff, IsNamed]

theorem mem_codepointsOf_iff {codepoint : Int} :
    codepoint ∈ codepointsOf glyphs ↔ ∃ glyph ∈ glyphs, glyph.codepoint = some codepoint := by
  rw [codepointsOf, List.mem_mergeSort, List.mem_eraseDups, List.mem_filterMap]

theorem pairwise_codepointsOf (glyphs : List Glyph) : (codepointsOf glyphs).Pairwise (· < ·) := by
  have hle : (codepointsOf glyphs).Pairwise (· ≤ ·) := List.pairwise_mergeSort' _ _
  have hne : (codepointsOf glyphs).Nodup :=
    (List.mergeSort_perm _ _).nodup_iff.mpr (Grouping.nodup_eraseDups _)
  exact hle.imp₂ (fun _ _ ↦ lt_of_le_of_ne) hne

/-- Two of the characters of a label have different codepoints. -/
def HaveTwoCodepoints (label : String) (weight : Weight) (glyphs : List Glyph) : Prop :=
  ∃ first ∈ glyphs, IsNamed .standalone label weight first ∧
    ∃ second ∈ glyphs, IsNamed .standalone label weight second ∧
      ∃ codepoint ∈ first.codepoint, ∃ other ∈ second.codepoint, codepoint ≠ other

theorem haveTwoCodepoints_iff {label : String} {weight : Weight} :
    HaveTwoCodepoints label weight glyphs ↔
      ¬ (codepointsOf (glyphs.filter (IsNamed .standalone label weight ·))).length < 2 := by
  rw [length_codepointsOf_lt_two_iff_forall, HaveTwoCodepoints]
  simp only [List.mem_filter, decide_eq_true_eq, and_imp, AgreeOnCodepoint, not_forall,
    exists_prop, ne_eq]

theorem sharing?_of_codepointFinding? {group : (Int × Weight) × List Glyph} {finding : Finding}
    (hfound : codepointFinding? view group = some finding) :
    finding.defect.sharing? = some .codepoint := by
  obtain ⟨-, hfinding⟩ := Option.ite_none_left_eq_some.mp hfound
  rw [← Option.some.inj hfinding]
  rfl

/-- The findings on codepoints tell of the codepoints that several characters have. -/
theorem tellOneByOne_codepointFindings (view : Viewpoint) (glyphs : List Glyph) :
    TellOneByOne
      (fun ((codepoint, weight) : Int × Weight) ↦
        2 ≤ glyphs.countP (IsCharacterOf codepoint weight ·))
      (fun (codepoint, weight) finding ↦ finding =
        ⟨view.references (glyphs.filter (IsCharacterOf codepoint weight ·)),
          .sharedCodepoint weight codepoint⟩)
      (((groups codepointKey glyphs).filterMap (codepointFinding? view)).filter
        (Finding.isOn · .codepoint)) := by
  have hgives (codepoint : Int) (weight : Weight) (finding : Finding) :
      (codepointFinding? view ((codepoint, weight), glyphs.filter fun glyph ↦
        codepointKey glyph == some (codepoint, weight))).filter (Finding.isOn · .codepoint) =
          some finding ↔
        2 ≤ glyphs.countP (IsCharacterOf codepoint weight ·) ∧ finding =
          ⟨view.references (glyphs.filter (IsCharacterOf codepoint weight ·)),
            .sharedCodepoint weight codepoint⟩ := by
    rw [filter_codepointKey, Option.filter_eq_some_iff, List.countP_eq_length_filter]
    constructor
    · rintro ⟨hfound, -⟩
      obtain ⟨hmany, hfinding⟩ := Option.ite_none_left_eq_some.mp hfound
      exact ⟨Nat.not_lt.mp hmany, (Option.some.inj hfinding).symm⟩
    · rintro ⟨hmany, rfl⟩
      exact ⟨if_neg (Nat.not_lt.mpr hmany), rfl⟩
  refine (tellOneByOne_groups codepointKey (codepointFinding? view) (fun _ ↦ rfl) _ glyphs).imp
    ?_ ?_
  · rintro ⟨codepoint, weight⟩
    simp only [Option.isSome_iff_exists, hgives, exists_and_left, exists_eq, and_true]
  · rintro ⟨codepoint, weight⟩ finding hfound
    exact ((hgives codepoint weight finding).mp hfound).2

/-- A finding on the glyphs of a label says which kind they are of. -/
theorem sharing?_of_labelFinding? {kind : GlyphKind} {label : String} {weight : Weight}
    {finding : Finding}
    (hfound : labelFinding? view ((kind, label, weight), glyphs) = some finding) :
    finding.defect.sharing? = some (.ofKind kind) := by
  obtain ⟨-, hmany⟩ := Option.ite_none_left_eq_some.mp hfound
  cases kind with
  | ligature =>
    rw [← Option.some.inj hmany]
    rfl
  | standalone =>
    obtain ⟨-, hfound⟩ := Option.ite_none_left_eq_some.mp hmany
    rw [← Option.some.inj hfound]
    rfl

/-- The findings on the labels of one kind of glyph tell of the labels whose glyphs give one. -/
theorem tellOneByOne_labelFindings (view : Viewpoint) (glyphs : List Glyph) (kind : GlyphKind) :
    let finding? : String × Weight → Option Finding := fun (label, weight) ↦
      labelFinding? view ((kind, label, weight), glyphs.filter (IsNamed kind label weight ·))
    TellOneByOne (fun key ↦ (finding? key).isSome) (fun key finding ↦ finding? key = some finding)
      (((groups labelKey glyphs).filterMap (labelFinding? view)).filter
        (Finding.isOn · (.ofKind kind))) := by
  intro finding?
  have hgives (other : GlyphKind) (key : String × Weight) (finding : Finding) :
      (labelFinding? view ((other, key), glyphs.filter fun glyph ↦
        labelKey glyph == some (other, key))).filter (Finding.isOn · (.ofKind kind)) =
          some finding ↔ other = kind ∧ finding? key = some finding := by
    rw [filter_labelKey, Option.filter_eq_some_iff]
    constructor
    · rintro ⟨hfound, hkept⟩
      rw [Finding.isOn, sharing?_of_labelFinding? hfound, beq_iff_eq] at hkept
      obtain rfl := Sharing.ofKind_injective (Option.some.inj hkept)
      exact ⟨rfl, hfound⟩
    · rintro ⟨rfl, hfound⟩
      refine ⟨hfound, ?_⟩
      rw [Finding.isOn, sharing?_of_labelFinding? hfound, beq_iff_eq]
  refine TellOneByOne.snd kind <|
    (tellOneByOne_groups labelKey (labelFinding? view) (fun _ ↦ rfl) _ glyphs).imp ?_ ?_
  · rintro ⟨other, key⟩
    simp only [Option.isSome_iff_exists, hgives, exists_and_left]
  · rintro ⟨other, key⟩ finding hfound
    exact ((hgives other key finding).mp hfound).2

/-- The findings on labels of ligatures tell of the labels that several ligatures have. -/
theorem tellOneByOne_ligatureFindings (view : Viewpoint) (glyphs : List Glyph) :
    TellOneByOne
      (fun ((label, weight) : String × Weight) ↦
        2 ≤ glyphs.countP (IsNamed .ligature label weight ·))
      (fun (label, weight) finding ↦ finding =
        ⟨view.references (glyphs.filter (IsNamed .ligature label weight ·)),
          .sharedLigatureLabel weight label⟩)
      (((groups labelKey glyphs).filterMap (labelFinding? view)).filter
        (Finding.isOn · .ligatureLabel)) := by
  refine (tellOneByOne_labelFindings view glyphs .ligature).imp ?_ ?_
  · rintro ⟨label, weight⟩
    simp only [Option.isSome_iff_ne_none, ne_eq, labelFinding?_ligature_eq_none_iff, Nat.not_lt,
      List.countP_eq_length_filter]
  · rintro ⟨label, weight⟩ finding hfound
    obtain ⟨-, hfinding⟩ := Option.ite_none_left_eq_some.mp hfound
    exact (Option.some.inj hfinding).symm

/-- The findings on labels of characters tell of the labels that stand for two codepoints. -/
theorem tellOneByOne_standaloneFindings (view : Viewpoint) (glyphs : List Glyph) :
    TellOneByOne
      (fun ((label, weight) : String × Weight) ↦ HaveTwoCodepoints label weight glyphs)
      (fun (label, weight) finding ↦
        let sharers := glyphs.filter (IsNamed .standalone label weight ·)
        finding = ⟨view.references sharers, .sharedLabel weight label (codepointsOf sharers)⟩)
      (((groups labelKey glyphs).filterMap (labelFinding? view)).filter
        (Finding.isOn · .label)) := by
  refine (tellOneByOne_labelFindings view glyphs .standalone).imp ?_ ?_
  · rintro ⟨label, weight⟩
    simp only [Option.isSome_iff_ne_none, ne_eq, labelFinding?_standalone_eq_none_iff,
      haveTwoCodepoints_iff]
  · rintro ⟨label, weight⟩ finding hfound
    obtain ⟨-, hmany⟩ := Option.ite_none_left_eq_some.mp hfound
    obtain ⟨-, hfinding⟩ := Option.ite_none_left_eq_some.mp hmany
    exact (Option.some.inj hfinding).symm

/-! ### Errors of the report -/

/-- Nothing that a glyph gives on its own is shared. -/
theorem sharing?_of_mem_glyphFindings {settings : Settings} {glyph : Glyph} :
    ∀ finding ∈ glyphFindings settings view glyph, finding.defect.sharing? = none := by
  simp only [glyphFindings, List.forall_mem_map]
  intro defect hdefect
  split at hdefect
  · rw [List.mem_singleton.mp hdefect]
    rfl
  · exact Defect.sharing?_of_isOfGlyph (isOfGlyph_of_mem_glyphDefects defect hdefect)

theorem sharing?_of_mem_componentFindings :
    ∀ finding ∈ glyphs.filterMap (componentFinding? view glyphs),
      finding.defect.sharing? = none := by
  refine List.forall_mem_filterMap.mpr fun glyph _ finding hfinding ↦ ?_
  unfold componentFinding? at hfinding
  obtain ⟨-, hfound⟩ := Option.ite_none_right_eq_some.mp hfinding
  rw [← Option.some.inj hfound]
  rfl

/-- Findings on other things than a shared one are left out. -/
theorem filter_isOn_eq_nil {found : List Finding} {sharing : Sharing}
    (hfound : ∀ finding ∈ found, finding.defect.sharing? ≠ some sharing) :
    found.filter (Finding.isOn · sharing) = [] :=
  List.filter_eq_nil_iff.mpr fun finding hfinding hshared ↦
    hfound finding hfinding (beq_iff_eq.mp hshared)

/-- The findings on shared things are those on groups. -/
theorem filter_findings (settings : Settings) (view : Viewpoint) (corpus : Corpus)
    (sharing : Sharing) :
    let active := activeGlyphs settings corpus.glyphs
    (findings settings view corpus).filter (Finding.isOn · sharing) =
      ((groups codepointKey active).filterMap (codepointFinding? view)).filter
          (Finding.isOn · sharing) ++
        ((groups labelKey active).filterMap (labelFinding? view)).filter
          (Finding.isOn · sharing) := by
  intro active
  have hnone {found : List Finding} (hfound : ∀ finding ∈ found, finding.defect.sharing? = none) :
      found.filter (Finding.isOn · sharing) = [] := by
    refine filter_isOn_eq_nil fun finding hfinding ↦ ?_
    rw [hfound finding hfinding]
    exact nofun
  have hrejections : (rejectionFindings view corpus.rejections).filter
      (Finding.isOn · sharing) = [] := hnone (by simp [rejectionFindings, Defect.sharing?])
  have hglyphs : (corpus.glyphs.flatMap (glyphFindings settings view)).filter
      (Finding.isOn · sharing) = [] :=
    hnone (List.forall_mem_flatMap.mpr fun _ _ ↦ sharing?_of_mem_glyphFindings)
  have hmissing : ((missingCodepoints settings.corpus active).map fun codepoint ↦
      Finding.mk settings.corpus.missingReference (.missingGlyph codepoint)).filter
        (Finding.isOn · sharing) = [] := hnone (by simp [Defect.sharing?])
  have hcomponents : (active.filterMap (componentFinding? view active)).filter
      (Finding.isOn · sharing) = [] := hnone sharing?_of_mem_componentFindings
  simp only [findings, List.filter_append, hrejections, hglyphs, hmissing, hcomponents,
    List.nil_append, List.append_nil, active]

/-- The errors worded as one on a shared thing are the issues of the findings on it. -/
theorem filter_errors_report (settings : Settings) (view : Viewpoint) (corpus : Corpus)
    (sharing : Sharing) :
    (report settings view corpus).errors.filter sharing.isToldBy =
      ((findings settings view corpus).filter (Finding.isOn · sharing)).map Finding.issue := by
  rw [errors_report, List.filter_map, List.filter_filter]
  congr 1
  refine List.filter_congr fun finding _ ↦ ?_
  rw [Function.comp_apply, Sharing.isToldBy_issue, ← Finding.isOn, Bool.and_eq_left_iff_imp]
  intro hshared
  rw [Defect.severity_of_sharing? (beq_iff_eq.mp hshared), beq_self_eq_true]

theorem filter_errors_report_codepoint (settings : Settings) (view : Viewpoint) (corpus : Corpus) :
    (report settings view corpus).errors.filter Sharing.codepoint.isToldBy =
      (((groups codepointKey (activeGlyphs settings corpus.glyphs)).filterMap
        (codepointFinding? view)).filter (Finding.isOn · .codepoint)).map Finding.issue := by
  have hlabels : ((groups labelKey (activeGlyphs settings corpus.glyphs)).filterMap
      (labelFinding? view)).filter (Finding.isOn · .codepoint) = [] := by
    refine filter_isOn_eq_nil (List.forall_mem_filterMap.mpr fun group _ finding hfound ↦ ?_)
    obtain ⟨⟨kind, label, weight⟩, members⟩ := group
    rw [sharing?_of_labelFinding? hfound]
    cases kind <;> exact nofun
  rw [filter_errors_report, filter_findings, hlabels, List.append_nil]

theorem filter_errors_report_ofKind (settings : Settings) (view : Viewpoint) (corpus : Corpus)
    (kind : GlyphKind) :
    (report settings view corpus).errors.filter (Sharing.ofKind kind).isToldBy =
      (((groups labelKey (activeGlyphs settings corpus.glyphs)).filterMap
        (labelFinding? view)).filter (Finding.isOn · (.ofKind kind))).map Finding.issue := by
  have hcodepoints : ((groups codepointKey (activeGlyphs settings corpus.glyphs)).filterMap
      (codepointFinding? view)).filter (Finding.isOn · (.ofKind kind)) = [] := by
    refine filter_isOn_eq_nil (List.forall_mem_filterMap.mpr fun group _ finding hfound ↦ ?_)
    rw [sharing?_of_codepointFinding? hfound]
    cases kind <;> exact nofun
  rw [filter_errors_report, filter_findings, hcodepoints, List.nil_append]

/-- The errors on shared codepoints and labels, each named once with its weight. A codepoint is told
of if several of the characters looked at have it, a label of ligatures if several ligatures have
it, and a label of characters if two of them have different codepoints. An error names all the
glyphs concerned in the order of the corpus, and one on a label of characters lists their
codepoints in increasing order. -/
theorem sharing_toldOneByOne (settings : Settings) (view : Viewpoint) (corpus : Corpus) :
    let active := activeGlyphs settings corpus.glyphs
    let errors (sharing : Sharing) := (report settings view corpus).errors.filter sharing.isToldBy
    TellOneByOne
        (fun ((codepoint, weight) : Int × Weight) ↦
          2 ≤ active.countP (IsCharacterOf codepoint weight ·))
        (fun (codepoint, weight) issue ↦ issue = Finding.issue
          ⟨view.references (active.filter (IsCharacterOf codepoint weight ·)),
            .sharedCodepoint weight codepoint⟩)
        (errors .codepoint) ∧
      TellOneByOne
        (fun ((label, weight) : String × Weight) ↦
          2 ≤ active.countP (IsNamed .ligature label weight ·))
        (fun (label, weight) issue ↦ issue = Finding.issue
          ⟨view.references (active.filter (IsNamed .ligature label weight ·)),
            .sharedLigatureLabel weight label⟩)
        (errors .ligatureLabel) ∧
      TellOneByOne
        (fun ((label, weight) : String × Weight) ↦ HaveTwoCodepoints label weight active)
        (fun (label, weight) issue ↦
          let sharers := active.filter (IsNamed .standalone label weight ·)
          ∃ codepoints : List Int, codepoints.Pairwise (· < ·) ∧
            (∀ codepoint, codepoint ∈ codepoints ↔
              ∃ glyph ∈ sharers, glyph.codepoint = some codepoint) ∧
            issue = Finding.issue
              ⟨view.references sharers, .sharedLabel weight label codepoints⟩)
        (errors .label) := by
  intro active errors
  have hcodepoints := (tellOneByOne_codepointFindings view active).map Finding.issue
  have hligatures := (tellOneByOne_ligatureFindings view active).map Finding.issue
  have hlabels := (tellOneByOne_standaloneFindings view active).map Finding.issue
  rw [← filter_errors_report_codepoint] at hcodepoints
  rw [← Sharing.ofKind, ← filter_errors_report_ofKind] at hligatures
  rw [← Sharing.ofKind, ← filter_errors_report_ofKind] at hlabels
  refine ⟨hcodepoints.imp (fun _ ↦ Iff.rfl) ?_, hligatures.imp (fun _ ↦ Iff.rfl) ?_,
    hlabels.imp (fun _ ↦ Iff.rfl) ?_⟩
  · rintro ⟨codepoint, weight⟩ _ ⟨finding, rfl, rfl⟩
    rfl
  · rintro ⟨label, weight⟩ _ ⟨finding, rfl, rfl⟩
    rfl
  · rintro ⟨label, weight⟩ _ ⟨finding, rfl, rfl⟩
    exact ⟨_, pairwise_codepointsOf _, fun _ ↦ mem_codepointsOf_iff, rfl⟩

end Gate

end PixelFont
