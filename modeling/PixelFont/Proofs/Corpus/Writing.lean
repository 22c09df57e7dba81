import PixelFont.Corpus.Writer
import PixelFont.Proofs.Corpus.Reading
import PixelFont.Proofs.GlyphFile.Filing
import PixelFont.Proofs.Grouping
import PixelFont.Proofs.Text.Utf8

/-!
Writing glyphs as files of a directory and reading them back. Each glyph written makes one more
file, if there is room for its path, and leaves the directory ready for the others
(`Corpus.IsReady.put`), so that all of them are written if there is room for all
(`Corpus.IsReady.writeFiles_eq`, `Corpus.IsReady.snd_writeFiles`). From a directory that holds
nothing but such files, glyphs whose names are in order are read back in that order, with nothing
changed but their sources (`Corpus.IsFiling.readWith_eq`). Main statement:
`Corpus.IsFiling.exists_comesBack`.
-/

set_option autoImplicit false

namespace PixelFont.Corpus

open FileTree

/-- What the file of a glyph holds. -/
def fileContent (glyph : Glyph) : FileContent :=
  .bytes (Text.Utf8.encode glyph.fileText.toList)

/-- The file of a glyph, by its name in a directory. -/
def fileEntry (glyph : Glyph) : String × FileNode :=
  (glyph.fileName, .file (fileContent glyph))

/-- Whether there is room for the path of a glyph's file in a directory. -/
def Fits (directory : Path) (glyph : Glyph) : Prop :=
  (filePath directory glyph).toText.utf8ByteSize ≤ maxPathSize

instance (directory : Path) (glyph : Glyph) : Decidable (Fits directory glyph) :=
  inferInstanceAs (Decidable (_ ≤ _))

/-- A glyph as it is read from its file in a directory. -/
def refiled (directory : Path) (glyph : Glyph) : Glyph :=
  { glyph with source := some (filePath directory glyph) }

/-- Glyphs that come through a directory unchanged: writing them there makes one file of each, and
what is read from it, by any number of workers, are the glyphs in their order with nothing changed
but their sources. -/
structure ComesBack (tree : FileTree) (directory : Path) (place : Place) (glyphs : List Glyph)
    (written : FileTree) : Prop where
  write_eq : write tree directory glyphs = (written, none)
  children_eq : written.children place = glyphs.map fileEntry
  nodup_fileName : (glyphs.map Glyph.fileName).Nodup
  readWith_eq : ∀ (workers : Option Int) (strict : Bool), (∀ number ∈ workers, 0 < number) →
    readWith written [directory] workers strict = .ok ⟨glyphs.map (refiled directory), []⟩

/-! ### Writing -/

/-- A directory in which some glyphs can be filed: none of their files is there yet, and no two of
them share a name. -/
structure IsReady (tree : FileTree) (directory : Path) (place : Place) (glyphs : List Glyph) :
    Prop where
  leadsTo : tree.LeadsTo directory place
  named : ∀ glyph ∈ glyphs, IsFileName glyph.fileName
  fresh : ∀ glyph ∈ glyphs, tree.node? (place ++ [glyph.fileName]) = none
  nodup : (glyphs.map Glyph.fileName).Nodup

namespace IsReady

variable {tree : FileTree} {directory : Path} {place : Place} {glyph : Glyph} {glyphs : List Glyph}

/-- A glyph filed leaves the directory ready for the others. -/
theorem put (hready : IsReady tree directory place (glyph :: glyphs)) :
    IsReady (tree.put (place ++ [glyph.fileName]) (fileEntry glyph).2) directory place glyphs := by
  obtain ⟨hleads, hnamed, hfresh, hnodup⟩ := hready
  rw [List.forall_mem_cons] at hnamed hfresh
  rw [List.map_cons, List.nodup_cons] at hnodup
  refine ⟨hleads.put hfresh.1 rfl, hnamed.2, fun other hother ↦ ?_, hnodup.2⟩
  have hne : place ++ [other.fileName] ≠ place ++ [glyph.fileName] := by
    intro hsame
    have hname : other.fileName = glyph.fileName := by simpa using hsame
    exact hnodup.1 (hname ▸ List.mem_map_of_mem hother)
  rw [node?_put_of_ne tree hne, hfresh.2 other hother]

/-- The first glyph is filed if there is room for its path. -/
theorem writeFiles_cons (hready : IsReady tree directory place (glyph :: glyphs)) :
    writeFiles tree directory (glyph :: glyphs) =
      if Fits directory glyph then
        writeFiles (tree.put (place ++ [glyph.fileName]) (fileEntry glyph).2) directory glyphs
      else (tree, some .nameTooLong) := by
  have hwrite : tree.writeText (filePath directory glyph) glyph.fileText =
      if Fits directory glyph then
        .ok (tree.put (place ++ [glyph.fileName]) (fileEntry glyph).2)
      else .error .nameTooLong :=
    hready.leadsTo.write_child (hready.named glyph List.mem_cons_self)
      (hready.fresh glyph List.mem_cons_self) (fileContent glyph)
  rw [writeFiles, hwrite]
  by_cases hfits : Fits directory glyph
  · simp only [if_pos hfits]
  · simp only [if_neg hfits]

/-- All glyphs are filed, in their order, if there is room for all of their paths. -/
theorem writeFiles_eq (hready : IsReady tree directory place glyphs)
    (hfits : ∀ glyph ∈ glyphs, Fits directory glyph) :
    ∃ written, writeFiles tree directory glyphs = (written, none) ∧
      written.LeadsTo directory place ∧
      written.children place = tree.children place ++ glyphs.map fileEntry := by
  induction glyphs generalizing tree with
  | nil => exact ⟨tree, rfl, hready.leadsTo, (List.append_nil _).symm⟩
  | cons glyph glyphs ih =>
    rw [List.forall_mem_cons] at hfits
    obtain ⟨written, hwritten, hleads, hchildren⟩ := ih hready.put hfits.2
    refine ⟨written, ?_, hleads, ?_⟩
    · rw [hready.writeFiles_cons, if_pos hfits.1, hwritten]
    · rw [hchildren, children_put _ (hready.fresh glyph List.mem_cons_self), List.append_assoc]
      rfl

/-- Nothing but a path that is too long keeps glyphs from being filed. -/
theorem snd_writeFiles (hready : IsReady tree directory place glyphs) :
    (writeFiles tree directory glyphs).2 =
      if ∀ glyph ∈ glyphs, Fits directory glyph then none else some .nameTooLong := by
  induction glyphs generalizing tree with
  | nil => rfl
  | cons glyph glyphs ih =>
    rw [hready.writeFiles_cons]
    by_cases hfits : Fits directory glyph
    · rw [if_pos hfits, ih hready.put]
      simp [hfits]
    · simp [hfits]

end IsReady

/-! ### Reading back -/

/-- Glyphs that can be filed in one directory and are read back in their order: each is told by the
text of its file, wherever that is, and the names of the files are in order. -/
structure IsFiling (glyphs : List Glyph) : Prop where
  named : ∀ glyph ∈ glyphs, IsFileName glyph.fileName
  told : ∀ glyph ∈ glyphs, ∀ path, GlyphFile.parse glyph.fileText.toList (some path) =
    .ok { glyph with source := some path }
  increasing : glyphs.Pairwise fun first second ↦
    Text.before first.fileName second.fileName = true

/-- The names of the files of glyphs are those of glyph files. -/
theorem isGlyphName_fileName (glyph : Glyph) : isGlyphName glyph.fileName = true := by
  rw [isGlyphName, Glyph.fileName, String.toList_append]
  exact List.isSuffixOf_iff_suffix.mpr (List.suffix_append _ _)

/-- A file is found among others of different names. -/
theorem find?_fileEntry {glyphs : List Glyph} (hnodup : (glyphs.map Glyph.fileName).Nodup)
    {glyph : Glyph} (hglyph : glyph ∈ glyphs) :
    (glyphs.map fileEntry).find? (·.1 == glyph.fileName) = some (fileEntry glyph) := by
  have hkeys : ((glyphs.map fileEntry).map Prod.fst).Nodup := by
    rw [List.map_map]
    exact hnodup
  exact (Grouping.find?_key_eq_some_iff hkeys).mpr ⟨List.mem_map_of_mem hglyph, rfl⟩

namespace IsFiling

variable {glyphs : List Glyph} (hfiling : IsFiling glyphs)
include hfiling

theorem nodup_fileName : (glyphs.map Glyph.fileName).Nodup := by
  refine List.pairwise_map.mpr (hfiling.increasing.imp fun hbefore hsame ↦ ?_)
  rw [hsame, Text.before_irrefl] at hbefore
  exact absurd hbefore Bool.false_ne_true

/-- An empty directory is ready for glyphs that can be filed in one. -/
theorem isReady {tree : FileTree} {directory : Path} {place : Place}
    (hleads : tree.LeadsTo directory place) (hempty : tree.children place = []) :
    IsReady tree directory place glyphs where
  leadsTo := hleads
  named := hfiling.named
  fresh := fun glyph _ ↦ by rw [node?_append_singleton, hempty]; rfl
  nodup := hfiling.nodup_fileName

section

variable {tree : FileTree} {directory : Path} {place : Place}
  (hleads : tree.LeadsTo directory place)
  (hchildren : tree.children place = glyphs.map fileEntry)
include hchildren

theorem node?_fileName {glyph : Glyph} (hglyph : glyph ∈ glyphs) :
    tree.node? (place ++ [glyph.fileName]) = some (.file (fileContent glyph)) := by
  rw [node?_append_singleton, hchildren, find?_fileEntry hfiling.nodup_fileName hglyph]
  rfl

variable (hfits : ∀ glyph ∈ glyphs, Fits directory glyph)
include hleads hfits

/-- Each glyph is read from its file. -/
theorem read_eq {glyph : Glyph} (hglyph : glyph ∈ glyphs) :
    GlyphFile.read tree (filePath directory glyph) = .ok (refiled directory glyph) :=
  GlyphFile.read_eq_ok_iff.mpr ⟨fileContent glyph, glyph.fileText.toList,
    hleads.read_child (hfiling.named glyph hglyph) (hfits glyph hglyph)
      (hfiling.node?_fileName hchildren hglyph),
    Text.Utf8.decode_encode _, hfiling.told glyph hglyph _⟩

theorem filesIn_eq : filesIn tree directory = .ok (glyphs.map (filePath directory)) := by
  have hnames : ((tree.children place).map (·.1)).filter isGlyphName =
      glyphs.map Glyph.fileName := by
    rw [hchildren, List.map_map]
    exact List.filter_eq_self.mpr (List.forall_mem_map.mpr fun glyph _ ↦ isGlyphName_fileName glyph)
  have hanswers : (glyphs.map (filePath directory)).mapM tree.isFile =
      .ok ((glyphs.map (filePath directory)).map fun _ ↦ true) := by
    refine Traversal.mapM_eq_ok (List.forall_mem_map.mpr fun glyph hglyph ↦ ?_)
    exact hleads.isFile_child (hfiling.named glyph hglyph) (hfits glyph hglyph)
      (hfiling.node?_fileName hchildren hglyph)
  have hpaths : (glyphs.map Glyph.fileName).map directory.child =
      glyphs.map (filePath directory) := List.map_map
  have hkept (paths : List Path) :
      ((paths.zip (paths.map fun _ ↦ true)).filter (·.2)).map (·.1) = paths := by
    rw [Traversal.map_filter_zip_map, List.filter_true]
  simp only [filesIn, hleads.locate_eq, hleads.unlessBarred_eq (·.reading) rfl, hnames, hpaths,
    hanswers, hkept]

/-- The files are found in the order of their names. -/
theorem discover_eq : discover tree [directory] = .ok (glyphs.map (filePath directory)) := by
  have hlisting : listing? tree directory = .ok (some (glyphs.map (filePath directory))) := by
    simp only [listing?, hleads.isDirectory, hfiling.filesIn_eq hleads hchildren hfits]
    rfl
  have hsorted : (glyphs.map (filePath directory)).Pairwise
      fun first second ↦ first.precedes second = true := by
    refine List.pairwise_map.mpr (hfiling.increasing.imp_of_mem ?_)
    intro first second hfirst hsecond hbefore
    rw [filePath, filePath, Path.precedes_child (hfiling.named first hfirst).component directory
      (hfiling.named second hsecond).component, Text.before_asymm hbefore]
    rfl
  have hlistings : [directory].mapM (listing? tree) =
      .ok ([directory].map fun _ ↦ some (glyphs.map (filePath directory))) := by
    refine Traversal.mapM_eq_ok fun other hother ↦ ?_
    rw [List.mem_singleton.mp hother, hlisting]
  rw [discover, hlistings]
  simp [List.mergeSort_of_pairwise hsorted]

/-- Glyphs are read back from a directory that holds their files and nothing else. -/
theorem readWith_eq {workers : Option Int} (hworkers : ∀ number ∈ workers, 0 < number)
    (strict : Bool) :
    readWith tree [directory] workers strict = .ok ⟨glyphs.map (refiled directory), []⟩ := by
  have hreadings : readings tree (glyphs.map (filePath directory)) =
      glyphs.map fun glyph ↦ (filePath directory glyph, .ok (refiled directory glyph)) := by
    rw [readings, List.map_map]
    refine List.map_congr_left fun glyph hglyph ↦ ?_
    rw [Function.comp_apply, hfiling.read_eq hleads hchildren hfits hglyph]
  have hrejected : (readings tree (glyphs.map (filePath directory))).filterMap rejected? = [] := by
    rw [hreadings, List.filterMap_map]
    exact List.filterMap_eq_nil_iff.mpr fun _ _ ↦ rfl
  have hcorpus : ofReadings (readings tree (glyphs.map (filePath directory))) =
      ⟨glyphs.map (refiled directory), []⟩ := by
    have hgiven : glyph? ∘ (fun glyph ↦ (filePath directory glyph, .ok (refiled directory glyph))) =
        some ∘ refiled directory := rfl
    rw [ofReadings, hrejected, hreadings, List.filterMap_map, hgiven, List.filterMap_eq_map]
    rfl
  have hdiscover := hfiling.discover_eq hleads hchildren hfits
  rw [← hcorpus]
  cases strict with
  | false => exact readWith_false_eq hdiscover hworkers
  | true => exact readWith_true_eq_ok hdiscover hworkers (by rw [hcorpus])

end

section

variable {tree : FileTree} {directory : Path} {place : Place}
  (hleads : tree.LeadsTo directory place) (hempty : tree.children place = [])
include hleads hempty

/-- Glyphs that can be filed come through an empty directory unchanged if there is room for their
paths. -/
theorem exists_comesBack (hfits : ∀ glyph ∈ glyphs, Fits directory glyph) :
    ∃ written, ComesBack tree directory place glyphs written := by
  obtain ⟨written, hwritten, hthere, hchildren⟩ :=
    (hfiling.isReady hleads hempty).writeFiles_eq hfits
  rw [hempty, List.nil_append] at hchildren
  refine ⟨written, ?_, hchildren, hfiling.nodup_fileName, fun workers strict hworkers ↦
    hfiling.readWith_eq hthere hchildren hfits hworkers strict⟩
  simp only [write, hleads.ensureDirectories, hwritten]

/-- Glyphs are written exactly if there is room for the paths of all of them. -/
theorem snd_write_eq_none_iff :
    (write tree directory glyphs).2 = none ↔ ∀ glyph ∈ glyphs, Fits directory glyph := by
  have hwritten := (hfiling.isReady hleads hempty).snd_writeFiles
  simp only [write, hleads.ensureDirectories, hwritten]
  by_cases hfits : ∀ glyph ∈ glyphs, Fits directory glyph
  · exact iff_of_true (if_pos hfits) hfits
  · exact iff_of_false (by simp only [if_neg hfits]; nofun) hfits

end

end IsFiling

end PixelFont.Corpus
