import PixelFont.Corpus.Reader
import PixelFont.Proofs.FileTree.Directory

/-!
When a corpus is read, and which of its files are rejected. A directory that is not there holds no
files, but the first one that cannot be listed keeps every file from being found: its path cannot be
looked up, it is barred from being listed, or a glyph file in it has a path that cannot be looked
up. Of the files found, those are rejected that cannot be read, that are not UTF-8 or that are
malformed; what a file that can be read gives is told by its path and by what it holds
(`GlyphFile.ofContent`). A strict reading fails with the error of the first file rejected, and a
reading by no worker at all fails. Main statements: `Corpus.exists_first_of_discover_eq_error`,
`Corpus.exists_discover_eq_error_iff`, `Corpus.rejections_ofReadings_eq_nil_iff`,
`Corpus.exists_readWith_true_eq_error`.
-/

set_option autoImplicit false

namespace PixelFont

/-! ### Files -/

/-- A file that gives no glyph: it cannot be read, it is not UTF-8, or its header is malformed. -/
inductive GlyphFile.IsRejected (tree : FileTree) (path : Path) : Prop where
  | unreadable {fault : FileFault} (hread : tree.read path = .error fault)
  | undecodable {content : FileContent} {fault : Text.Utf8.Fault}
      (hread : tree.read path = .ok content) (hdecode : decode content = .error fault)
  | malformed {content : FileContent} {text : List Char} {fault : HeaderFault}
      (hread : tree.read path = .ok content) (hdecode : decode content = .ok text)
      (hparse : parse text (some path) = .error fault)

theorem GlyphFile.exists_read_eq_error_iff {tree : FileTree} {path : Path} :
    (∃ error, read tree path = .error error) ↔ IsRejected tree path := by
  unfold read readText
  constructor
  · rintro ⟨error, herror⟩
    cases hread : tree.read path with
    | error fault => exact .unreadable hread
    | ok content =>
      cases hdecode : decode content with
      | error fault => exact .undecodable hread hdecode
      | ok text =>
        cases hparse : parse text (some path) with
        | error fault => exact .malformed hread hdecode hparse
        | ok glyph => simp [hread, hdecode, hparse] at herror
  · rintro (hread | ⟨hread, hdecode⟩ | ⟨hread, hdecode, hparse⟩)
    · simp [hread]
    · simp [hread, hdecode]
    · simp [hread, hdecode, hparse]

theorem GlyphFile.read_eq_ok_iff {tree : FileTree} {path : Path} {glyph : Glyph} :
    read tree path = .ok glyph ↔
      ∃ content text, tree.read path = .ok content ∧ decode content = .ok text ∧
        parse text (some path) = .ok glyph := by
  unfold read readText
  cases hread : tree.read path with
  | error fault => simp
  | ok content =>
    cases hdecode : decode content with
    | error fault => simp [hdecode]
    | ok text => cases hparse : parse text (some path) <;> simp [hdecode, hparse]

/-- What a glyph that is read does not have from the header: it is drawn and not derived, it has the
raster lines of the text, and it tells where the file is. -/
theorem GlyphFile.drawn_of_parse {text : List Char} {path : Option Path} {glyph : Glyph}
    (hparse : parse text path = .ok glyph) :
    glyph.derived = false ∧ glyph.rasterLines = (sections text).raster.map String.ofList ∧
      glyph.source = path := by
  simp only [parse, Traversal.bind_eq_ok_iff] at hparse
  obtain ⟨header, -, hglyph⟩ := hparse
  rw [← Except.ok.inj hglyph]
  exact ⟨rfl, rfl, rfl⟩

/-- What a file gives, as told by its path and by what it holds. -/
def GlyphFile.ofContent (path : Path) (content : FileContent) : Except GlyphFileError Glyph :=
  match decode content with
  | .error fault => .error (.unreadable path.toText (.encoding fault))
  | .ok text =>
    match parse text (some path) with
    | .error fault => .error (.malformed path.toText fault)
    | .ok glyph => .ok glyph

theorem GlyphFile.read_eq_ofContent {tree : FileTree} {path : Path} {content : FileContent}
    (hread : tree.read path = .ok content) : read tree path = ofContent path content := by
  simp only [read, readText, hread, ofContent]
  cases decode content <;> rfl

theorem GlyphFile.read_of_read_eq_error {tree : FileTree} {path : Path} {fault : FileFault}
    (hread : tree.read path = .error fault) :
    read tree path = .error (.unreadable path.toText (.file fault)) := by
  simp only [read, readText, hread]

namespace Corpus

variable {tree : FileTree}

/-- The glyphs of a corpus are those that its files give. -/
theorem mem_glyphs_ofReadings_iff {paths : List Path} {glyph : Glyph} :
    glyph ∈ (ofReadings (readings tree paths)).glyphs ↔
      ∃ path ∈ paths, GlyphFile.read tree path = .ok glyph := by
  have hgiven (path : Path) : glyph? (path, GlyphFile.read tree path) = some glyph ↔
      GlyphFile.read tree path = .ok glyph := by
    rw [glyph?, Traversal.toOption_eq_some_iff]
  simp only [ofReadings, readings, List.filterMap_map, List.mem_filterMap, Function.comp_apply,
    hgiven]

/-- No file is rejected exactly if every reading gives a glyph. -/
theorem rejections_ofReadings_eq_nil_iff {paths : List Path} :
    (ofReadings (readings tree paths)).rejections = [] ↔
      ∀ path ∈ paths, ¬ GlyphFile.IsRejected tree path := by
  have hrejected (path : Path) :
      rejected? (path, GlyphFile.read tree path) = none ↔ ¬ GlyphFile.IsRejected tree path := by
    rw [← GlyphFile.exists_read_eq_error_iff, rejected?]
    cases GlyphFile.read tree path <;> simp
  simp only [ofReadings, List.map_eq_nil_iff, List.filterMap_eq_nil_iff, readings,
    List.forall_mem_map, hrejected]

/-! ### Directories -/

/-- Why a directory cannot be listed: its path cannot be looked up, and not because nothing is
there; it is barred from being listed; or the path of a glyph file in it cannot be looked up. -/
inductive ListingFault (tree : FileTree) (directory : Path) (fault : FileFault) : Prop where
  | directory (hlocate : tree.locate directory = .error fault) (hpresent : fault.isAbsence = false)
  | listing {place : Place} {barriers : Barriers} {barrier : Barrier}
      (hleads : tree.LeadsTo directory place barriers) (hbarred : barriers.reading = some barrier)
      (hfault : fault = .barred barrier)
  | file {place : Place} {barriers : Barriers} {name : String}
      (hleads : tree.LeadsTo directory place barriers) (hopen : barriers.reading = none)
      (hname : name ∈ (tree.children place).map Prod.fst) (hglyph : isGlyphName name = true)
      (hlocate : tree.locate (directory.child name) = .error fault)
      (hpresent : fault.isAbsence = false)

/-- A directory that cannot be listed. -/
def IsUnlistable (tree : FileTree) (directory : Path) : Prop :=
  ∃ fault, ListingFault tree directory fault

section Listing

variable {directory : Path} {place : Place} {barriers : Barriers}

/-- A directory that is there is listed unless it is barred, and then its glyph files are looked
up. -/
theorem filesIn_eq_error_iff (hleads : tree.LeadsTo directory place barriers) {fault : FileFault} :
    filesIn tree directory = .error fault ↔
      (∃ barrier, barriers.reading = some barrier ∧ fault = .barred barrier) ∨
        barriers.reading = none ∧
          ((((tree.children place).map (·.1)).filter isGlyphName).map directory.child).mapM
            tree.isFile = .error fault := by
  simp only [filesIn, hleads.locate_eq, FileTree.unlessBarred_eq_error_iff, hleads.barrier?_eq]
  refine or_congr_right (and_congr_right fun _ ↦ ?_)
  split <;> simp [*]

theorem listing?_eq_error_of_locate {fault : FileFault}
    (hlocate : tree.locate directory = .error fault) (hpresent : fault.isAbsence = false) :
    listing? tree directory = .error fault := by
  have hfound := FileTree.isDirectory_eq_error_iff.mpr ⟨hlocate, hpresent⟩
  rw [listing?, hfound]

theorem listing?_of_leadsTo (hleads : tree.LeadsTo directory place barriers) :
    listing? tree directory = (filesIn tree directory).map some := by
  rw [listing?, hleads.isDirectory]

/-- Where a listing fails, there is a reason for its fault. -/
theorem ListingFault.of_listing?_eq_error {fault : FileFault}
    (hfault : listing? tree directory = .error fault) : ListingFault tree directory fault := by
  unfold listing? at hfault
  split at hfault
  · rename_i found hfound
    obtain rfl := Except.error.inj hfault
    obtain ⟨hlocate, hpresent⟩ := FileTree.isDirectory_eq_error_iff.mp hfound
    exact .directory hlocate hpresent
  · cases hfault
  · rename_i hfound
    obtain ⟨place, barriers, hlocate, hnode⟩ := FileTree.isDirectory_eq_true_iff.mp hfound
    have hleads : tree.LeadsTo directory place barriers := ⟨hlocate, hnode⟩
    rw [Traversal.map_eq_error_iff, filesIn_eq_error_iff hleads] at hfault
    rcases hfault with ⟨barrier, hbarred, rfl⟩ | ⟨hopen, hfiles⟩
    · exact .listing hleads hbarred rfl
    · obtain ⟨before, path, after, hpaths, -, hfile⟩ := Traversal.mapM_eq_error_iff.mp hfiles
      have hpath : path ∈ (((tree.children place).map (·.1)).filter isGlyphName).map
          directory.child := by
        rw [hpaths]
        simp
      obtain ⟨name, hname, rfl⟩ := List.mem_map.mp hpath
      obtain ⟨hname, hglyph⟩ := List.mem_filter.mp hname
      obtain ⟨hlocate, hpresent⟩ := FileTree.isFile_eq_error_iff.mp hfile
      exact .file hleads hopen hname hglyph hlocate hpresent

/-- What is there is listed, and what is not there counts as empty, exactly if there is no such
reason. -/
theorem exists_listing?_eq_error_iff :
    (∃ fault, listing? tree directory = .error fault) ↔ IsUnlistable tree directory := by
  refine ⟨fun ⟨fault, hfault⟩ ↦ ⟨fault, .of_listing?_eq_error hfault⟩, ?_⟩
  rintro ⟨fault, hfault⟩
  cases hfault with
  | directory hlocate hpresent => exact ⟨fault, listing?_eq_error_of_locate hlocate hpresent⟩
  | listing hleads hbarred hfault =>
    have hfiles := (filesIn_eq_error_iff hleads).mpr (.inl ⟨_, hbarred, hfault⟩)
    exact ⟨fault, by rw [listing?_of_leadsTo hleads, hfiles]; rfl⟩
  | file hleads hopen hname hglyph hlocate hpresent =>
    -- Another name may be looked up before and be at fault, so the fault may be another one.
    obtain ⟨found, hfound⟩ := Traversal.exists_mapM_eq_error_iff.mpr
      ⟨_, List.mem_map_of_mem (List.mem_filter.mpr ⟨hname, hglyph⟩), _,
        FileTree.isFile_eq_error_iff.mpr ⟨hlocate, hpresent⟩⟩
    have hfiles := (filesIn_eq_error_iff hleads).mpr (.inr ⟨hopen, hfound⟩)
    exact ⟨found, by rw [listing?_of_leadsTo hleads, hfiles]; rfl⟩

end Listing

section Discovery

variable {directories : List Path}

theorem discover_eq_error_iff {fault : FileFault} :
    discover tree directories = .error fault ↔
      directories.mapM (listing? tree) = .error fault := by
  unfold discover
  split <;> simp [*]

/-- No file is found exactly if one of the directories cannot be listed. -/
theorem exists_discover_eq_error_iff :
    (∃ fault, discover tree directories = .error fault) ↔
      ∃ directory ∈ directories, IsUnlistable tree directory := by
  simp only [discover_eq_error_iff, Traversal.exists_mapM_eq_error_iff,
    exists_listing?_eq_error_iff]

/-- A directory whose path cannot be looked up is at fault if those before it are listed. -/
theorem discover_eq_error_of_locate {before after : List Path} {directory : Path}
    {fault : FileFault}
    (hbefore : ∀ earlier ∈ before, ∃ listing, listing? tree earlier = .ok listing)
    (hlocate : tree.locate directory = .error fault) (hpresent : fault.isAbsence = false) :
    discover tree (before ++ directory :: after) = .error fault :=
  discover_eq_error_iff.mpr (Traversal.mapM_eq_error_of_first hbefore
    (listing?_eq_error_of_locate hlocate hpresent))

/-- The fault is that of the first directory that cannot be listed. -/
theorem exists_first_of_discover_eq_error {fault : FileFault}
    (hfault : discover tree directories = .error fault) :
    ∃ before directory after, directories = before ++ directory :: after ∧
      (∀ earlier ∈ before, ¬ IsUnlistable tree earlier) ∧ ListingFault tree directory fault := by
  obtain ⟨before, directory, after, rfl, hbefore, hdirectory⟩ :=
    Traversal.mapM_eq_error_iff.mp (discover_eq_error_iff.mp hfault)
  refine ⟨before, directory, after, rfl, fun earlier hearlier hunlistable ↦ ?_,
    .of_listing?_eq_error hdirectory⟩
  obtain ⟨found, hfound⟩ := exists_listing?_eq_error_iff.mpr hunlistable
  obtain ⟨listing, hlisting⟩ := hbefore earlier hearlier
  exact absurd (hlisting.symm.trans hfound) nofun

end Discovery

/-! ### Workers -/

section Workers

variable {workers : Option Int} {directories paths : List Path}

/-- No files are read by no worker at all. -/
theorem readWith_eq_noWorkers (hdiscover : discover tree directories = .ok paths)
    (hnone : ∃ number ∈ workers, number ≤ 0) (strict : Bool) :
    readWith tree directories workers strict = .error .noWorkers := by
  obtain ⟨number, hnumber, hfew⟩ := hnone
  have hany : workers.any (· ≤ 0) = true := by
    rw [Option.mem_def.mp hnumber, Option.any_some, decide_eq_true hfew]
  simp only [readWith, hdiscover, if_pos hany]

theorem not_any_le_zero (hworkers : ∀ number ∈ workers, 0 < number) :
    ¬ workers.any (· ≤ 0) = true := by
  cases workers with
  | none => simp
  | some number => simpa using hworkers number rfl

variable (hdiscover : discover tree directories = .ok paths)
  (hworkers : ∀ number ∈ workers, 0 < number)
include hdiscover hworkers

theorem readWith_false_eq :
    readWith tree directories workers false = .ok (ofReadings (readings tree paths)) := by
  simp only [readWith, hdiscover, if_neg (not_any_le_zero hworkers)]

theorem readWith_true_eq_ok (hnone : (ofReadings (readings tree paths)).rejections = []) :
    readWith tree directories workers true = .ok (ofReadings (readings tree paths)) := by
  have hrejected : (readings tree paths).filterMap rejected? = [] := List.map_eq_nil_iff.mp hnone
  simp only [readWith, hdiscover, if_neg (not_any_le_zero hworkers), hrejected]

/-- A strict reading fails as the first file does that is rejected. -/
theorem exists_readWith_true_eq_error {rejection : Rejection} {later : List Rejection}
    (hfirst : (ofReadings (readings tree paths)).rejections = rejection :: later) :
    ∃ error, GlyphFile.read tree rejection.path = .error error ∧
      error.reason = rejection.reason ∧
      readWith tree directories workers true = .error (.rejected error) := by
  obtain ⟨⟨path, error⟩, rest, hrejected, rfl, -⟩ := List.map_eq_cons_iff.mp hfirst
  refine ⟨error, ?_, rfl, ?_⟩
  · have hmem : (path, error) ∈ (readings tree paths).filterMap rejected? := by
      rw [hrejected]
      exact List.mem_cons_self
    obtain ⟨reading, hreading, hgiven⟩ := List.mem_filterMap.mp hmem
    obtain ⟨found, -, rfl⟩ := List.mem_map.mp hreading
    unfold rejected? at hgiven
    split at hgiven
    · rename_i given hfound
      obtain ⟨rfl, rfl⟩ := Prod.mk.inj (Option.some.inj hgiven)
      exact hfound
    · exact absurd hgiven nofun
  · simp only [readWith, hdiscover, if_neg (not_any_le_zero hworkers), hrejected]

end Workers

end Corpus

end PixelFont
