import Mathlib.Data.List.Perm.Basic
import PixelFont.Proofs.Corpus.Reading
import PixelFont.Proofs.FileTree.Relisting

/-!
Reading a corpus in whatever order its directories are given and listed. The glyph files directly
inside a directory are told by the tree up to their order (`IsListing.perm`), and paths sort in one
way only, so that the paths found depend on neither (`IsDiscovery.unique`). What comes of a file is
told by its path and by what it holds (`GlyphFile.ofContent`), or by what bars it from being read,
and each path found makes one entry of the corpus (`IsCorpusOf`), in one of two lists that keep the
order of the paths. Main statement: `readWith_orderFree`.
-/

set_option autoImplicit false

namespace PixelFont.Corpus

open FileTree

variable {tree relisted : FileTree} {directory : Path} {place : Place} {barriers : Barriers}
  {name : String} {directories reordered paths others : List Path} {corpus : Corpus}

/-! ### Listings -/

/-- The files directly inside a directory whose names are those of glyph files, each of them once,
whether it can be read or not. There are none where the path leads to no directory. -/
structure IsListing (tree : FileTree) (directory : Path) (paths : List Path) : Prop where
  nodup : paths.Nodup
  mem_iff : ∀ path, path ∈ paths ↔ ∃ place barriers name content fileBarriers,
    tree.LeadsTo directory place barriers ∧ isGlyphName name = true ∧
    tree.node? (place ++ [name]) = some (.file content fileBarriers) ∧
    path = directory.child name

/-- A directory is listed in one way up to the order. -/
theorem IsListing.perm (hpaths : IsListing tree directory paths)
    (hothers : IsListing tree directory others) : paths.Perm others :=
  (List.perm_ext_iff_of_nodup hpaths.nodup hothers.nodup).mpr fun path ↦
    (hpaths.mem_iff path).trans (hothers.mem_iff path).symm

section WellFormed

variable (hwell : tree.IsWellFormed)
include hwell

/-- A relisting has the same listings. -/
theorem IsListing.of_relisting (hrelisted : relisted.IsRelisting tree)
    (hpaths : IsListing relisted directory paths) : IsListing tree directory paths where
  nodup := hpaths.nodup
  mem_iff := by
    simpa only [hrelisted.leadsTo_iff hwell, hrelisted.node?_eq hwell] using hpaths.mem_iff

theorem ListingFault.of_relisting (hrelisted : relisted.IsRelisting tree) {fault : FileFault}
    (hfault : ListingFault relisted directory fault) : ListingFault tree directory fault := by
  have hlocate := hrelisted.locate_eq hwell
  cases hfault with
  | directory hfault hpresent => exact .directory ((hlocate _).symm.trans hfault) hpresent
  | listing hleads hbarred hfault =>
    exact .listing ((hrelisted.leadsTo_iff hwell).mp hleads) hbarred hfault
  | file hleads hopen hname hglyph hfile hpresent =>
    exact .file ((hrelisted.leadsTo_iff hwell).mp hleads) hopen
      (((hrelisted.children_perm _).map _).subset hname) hglyph ((hlocate _).symm.trans hfile)
      hpresent

theorem IsUnlistable.of_relisting (hrelisted : relisted.IsRelisting tree)
    (hdirectory : IsUnlistable relisted directory) : IsUnlistable tree directory :=
  hdirectory.imp fun _ ↦ ListingFault.of_relisting hwell hrelisted

variable (hlistable : ¬ IsUnlistable tree directory)
include hlistable

omit hwell in
/-- A directory that can be listed is not barred from it. -/
theorem reading_eq_none_of_not_isUnlistable (hleads : tree.LeadsTo directory place barriers) :
    barriers.reading = none := by
  by_contra hbarred
  obtain ⟨barrier, hbarrier⟩ := Option.ne_none_iff_exists'.mp hbarred
  exact hlistable ⟨_, .listing hleads hbarrier rfl⟩

/-- In a directory that can be listed, the path of every glyph file leads to its place. -/
theorem locate_child_of_not_isUnlistable (hleads : tree.LeadsTo directory place barriers)
    (hglyph : isGlyphName name = true) (hname : name ∈ (tree.children place).map Prod.fst) :
    tree.locate (directory.child name) = .ok (place ++ [name]) := by
  have hlocate := hleads.locate_child (hwell.isFileName_of_mem_children hname)
  have hfile {fault : FileFault} (hfault : tree.locate (directory.child name) = .error fault) :
      fault.isAbsence = true := by
    by_contra hpresent
    exact hlistable ⟨fault, .file hleads (reading_eq_none_of_not_isUnlistable hlistable hleads)
      hname hglyph hfault (Bool.eq_false_iff.mpr hpresent)⟩
  split_ifs at hlocate with hfits
  · cases hbarrier : tree.barrier? (·.lookup) place with
    | none => rw [hlocate, unlessBarred_of_eq_none hbarrier]
    | some barrier =>
      exact absurd (hfile (hlocate.trans (unlessBarred_of_eq_some hbarrier))) nofun
  · exact absurd (hfile hlocate) nofun

/-- A file of a directory that can be listed can be read, unless it is barred. -/
theorem IsListing.read_eq (hpaths : IsListing tree directory paths) :
    ∀ path ∈ paths, (∃ content, tree.read path = .ok content) ∨
      ∃ barrier, tree.read path = .error (.barred barrier) := by
  intro path hpath
  obtain ⟨place, barriers, name, content, fileBarriers, hleads, hglyph, hfile, rfl⟩ :=
    (hpaths.mem_iff path).mp hpath
  have hlocate := locate_child_of_not_isUnlistable hwell hlistable hleads hglyph
    (List.mem_map_of_mem (f := Prod.fst) (hwell.mem_children_iff.mpr hfile))
  rw [FileTree.read, hlocate]
  cases hbarrier : tree.barrier? (·.reading) (place ++ [name]) with
  | none => exact .inl ⟨content, by simp only [unlessBarred_of_eq_none hbarrier, hfile]⟩
  | some barrier => exact .inr ⟨barrier, unlessBarred_of_eq_some hbarrier⟩

theorem exists_filesIn_eq (hleads : tree.LeadsTo directory place barriers) :
    ∃ paths, filesIn tree directory = .ok paths ∧ IsListing tree directory paths := by
  generalize hnames : ((tree.children place).map (·.1)).filter isGlyphName = names
  have hmem : ∀ name, name ∈ names ↔
      name ∈ (tree.children place).map Prod.fst ∧ isGlyphName name = true := by
    simp [← hnames]
  have hnamed : ∀ name ∈ names, IsFileName name := fun name hname ↦
    hwell.isFileName_of_mem_children ((hmem name).mp hname).1
  have hlocate : ∀ name ∈ names, tree.locate (directory.child name) = .ok (place ++ [name]) :=
    fun name hname ↦ locate_child_of_not_isUnlistable hwell hlistable hleads
      ((hmem name).mp hname).2 ((hmem name).mp hname).1
  have hanswers : (names.map directory.child).mapM tree.isFile =
      .ok ((names.map directory.child).map fun path ↦ decide (tree.isFile path = .ok true)) := by
    refine Traversal.mapM_eq_ok (List.forall_mem_map.mpr fun name hname ↦ ?_)
    cases hfile : tree.isFile (directory.child name) with
    | ok answer => simp
    | error fault =>
      exact absurd ((hlocate name hname).symm.trans (isFile_eq_error_iff.mp hfile).1) nofun
  have hopen : tree.barrier? (·.reading) place = none :=
    (hleads.barrier?_eq _).trans (reading_eq_none_of_not_isUnlistable hlistable hleads)
  refine ⟨(names.map directory.child).filter fun path ↦ decide (tree.isFile path = .ok true),
    ?_, ?_, fun path ↦ ?_⟩
  · simp only [filesIn, hleads.locate_eq, unlessBarred_of_eq_none hopen, hnames, hanswers,
      Traversal.map_filter_zip_map]
  · have hnodup : names.Nodup := hnames ▸ hwell.nodup_children.filter _
    refine (hnodup.map_on fun first hfirst second hsecond hsame ↦ ?_).filter _
    have hcomponents := congrArg Path.components hsame
    rw [Path.components_child (hnamed first hfirst).component,
      Path.components_child (hnamed second hsecond).component] at hcomponents
    simpa using hcomponents
  · rw [List.mem_filter, List.mem_map, decide_eq_true_eq]
    constructor
    · rintro ⟨⟨name, hname, rfl⟩, hfile⟩
      obtain ⟨found, content, fileBarriers, hfound, hnode⟩ := isFile_eq_true_iff.mp hfile
      obtain rfl := Except.ok.inj ((hlocate name hname).symm.trans hfound)
      exact ⟨place, barriers, name, content, fileBarriers, hleads, ((hmem name).mp hname).2,
        hnode, rfl⟩
    · rintro ⟨found, foundBarriers, name, content, fileBarriers, hfound, hglyph, hnode, rfl⟩
      obtain rfl := Except.ok.inj (hfound.locate_eq.symm.trans hleads.locate_eq)
      have hname : name ∈ names := (hmem name).mpr
        ⟨List.mem_map_of_mem (f := Prod.fst) (hwell.mem_children_iff.mpr hnode), hglyph⟩
      exact ⟨⟨name, hname, rfl⟩,
        isFile_eq_true_iff.mpr ⟨_, content, fileBarriers, hlocate name hname, hnode⟩⟩

/-- A directory that can be listed is listed as it is, and one that is not there as empty. -/
theorem exists_listing?_eq :
    ∃ found, listing? tree directory = .ok found ∧ IsListing tree directory (found.getD []) := by
  unfold listing?
  split
  · rename_i fault hfault
    obtain ⟨hlocate, hpresent⟩ := isDirectory_eq_error_iff.mp hfault
    exact absurd ⟨fault, .directory hlocate hpresent⟩ hlistable
  · rename_i hnone
    refine ⟨none, rfl, List.nodup_nil, fun path ↦ iff_of_false List.not_mem_nil ?_⟩
    rintro ⟨place, barriers, name, content, fileBarriers, hleads, -⟩
    exact absurd (hnone.symm.trans hleads.isDirectory) nofun
  · rename_i hthere
    obtain ⟨place, barriers, hlocate, hnode⟩ := isDirectory_eq_true_iff.mp hthere
    obtain ⟨paths, hpaths, hlisting⟩ := exists_filesIn_eq hwell hlistable ⟨hlocate, hnode⟩
    exact ⟨some paths, by rw [hpaths]; rfl, hlisting⟩

end WellFormed

/-! ### Discovery -/

/-- The glyph files of some directories in the order of their paths: each file once for every
directory of the list that it is in. -/
structure IsDiscovery (tree : FileTree) (directories paths : List Path) : Prop where
  sorted : paths.Pairwise (Path.precedes · · = true)
  listed : ∃ listings, directories.Forall₂ (IsListing tree) listings ∧
    paths.Perm listings.flatten

/-- Directories are listed one by one in one way up to the order of each listing. -/
theorem flatten_perm_of_isListing {listings otherListings : List (List Path)}
    (hlistings : directories.Forall₂ (IsListing tree) listings)
    (hothers : directories.Forall₂ (IsListing tree) otherListings) :
    listings.flatten.Perm otherListings.flatten := by
  induction hlistings generalizing otherListings with
  | nil =>
    obtain rfl := List.forall₂_nil_left_iff.mp hothers
    exact List.Perm.refl _
  | cons hlisting hlistings ih =>
    obtain ⟨other, rest, hother, hrest, rfl⟩ := List.forall₂_cons_left_iff.mp hothers
    rw [List.flatten_cons, List.flatten_cons]
    exact (hlisting.perm hother).append (ih hrest)

namespace IsDiscovery

/-- The files of some directories are found in one way only. -/
theorem unique (hpaths : IsDiscovery tree directories paths)
    (hothers : IsDiscovery tree directories others) : paths = others := by
  obtain ⟨hsorted, listings, hlistings, hperm⟩ := hpaths
  obtain ⟨hothersSorted, otherListings, hotherListings, hotherPerm⟩ := hothers
  have hflatten := flatten_perm_of_isListing hlistings hotherListings
  exact Path.eq_of_pairwise_precedes (hperm.trans (hflatten.trans hotherPerm.symm)) hsorted
    hothersSorted

/-- The directories may be given in another order. -/
theorem of_perm (hreordered : reordered.Perm directories)
    (hpaths : IsDiscovery tree reordered paths) : IsDiscovery tree directories paths := by
  obtain ⟨hsorted, listings, hlistings, hperm⟩ := hpaths
  obtain ⟨others, hothers, hpermuted⟩ := List.perm_comp_forall₂ hreordered.symm hlistings
  exact ⟨hsorted, others, hothers, hperm.trans hpermuted.symm.flatten⟩

/-- The directories may be listed in another order. -/
theorem of_relisting (hwell : tree.IsWellFormed) (hrelisted : relisted.IsRelisting tree)
    (hpaths : IsDiscovery relisted directories paths) : IsDiscovery tree directories paths := by
  obtain ⟨hsorted, listings, hlistings, hperm⟩ := hpaths
  exact ⟨hsorted, listings, hlistings.imp fun _ _ ↦ IsListing.of_relisting hwell hrelisted,
    hperm⟩

end IsDiscovery

section Found

variable (hwell : tree.IsWellFormed)
  (hlistable : ∀ directory ∈ directories, ¬ IsUnlistable tree directory)
include hwell hlistable

theorem exists_mapM_listing?_eq :
    ∃ found, directories.mapM (listing? tree) = .ok found ∧
      directories.Forall₂ (IsListing tree) (found.map (·.getD [])) := by
  induction directories with
  | nil => exact ⟨[], rfl, .nil⟩
  | cons directory directories ih =>
    rw [List.forall_mem_cons] at hlistable
    obtain ⟨first, hfirst, hlisting⟩ := exists_listing?_eq hwell hlistable.1
    obtain ⟨found, hfound, hlistings⟩ := ih hlistable.2
    refine ⟨first :: found, ?_, .cons hlisting hlistings⟩
    rw [List.mapM_cons, hfirst, hfound]
    rfl

/-- The files of directories that can be listed are found. -/
theorem exists_discover_eq :
    ∃ paths, discover tree directories = .ok paths ∧ IsDiscovery tree directories paths := by
  obtain ⟨found, hfound, hlistings⟩ := exists_mapM_listing?_eq hwell hlistable
  have hflatten (found : List (Option (List Path))) :
      (found.filterMap id).flatten = (found.map (·.getD [])).flatten := by
    induction found with
    | nil => rfl
    | cons first found ih => cases first <;> simpa using ih
  refine ⟨(found.map (·.getD [])).flatten.mergeSort Path.precedes, ?_, ?_, _, hlistings, ?_⟩
  · rw [discover, hfound, ← hflatten]
  · exact Path.pairwise_mergeSort_precedes _
  · exact List.mergeSort_perm _ _

/-- The files found in directories that can be listed can be read, unless they are barred. -/
theorem IsDiscovery.read_eq (hpaths : IsDiscovery tree directories paths) :
    ∀ path ∈ paths, (∃ content, tree.read path = .ok content) ∨
      ∃ barrier, tree.read path = .error (.barred barrier) := by
  obtain ⟨-, listings, hlistings, hperm⟩ := hpaths
  have hread : ∀ path ∈ listings.flatten, (∃ content, tree.read path = .ok content) ∨
      ∃ barrier, tree.read path = .error (.barred barrier) := by
    clear hperm
    induction hlistings with
    | nil => exact List.forall_mem_nil _
    | cons hlisting hlistings ih =>
      rw [List.forall_mem_cons] at hlistable
      rw [List.flatten_cons, List.forall_mem_append]
      exact ⟨hlisting.read_eq hwell hlistable.1, ih hlistable.2⟩
  exact fun path hpath ↦ hread path (hperm.subset hpath)

/-- Neither the order of the directories nor that of their listings has a say in what is found. -/
theorem IsDiscovery.discover_eq (hpaths : IsDiscovery tree directories paths)
    (hrelisted : relisted.IsRelisting tree) (hreordered : reordered.Perm directories) :
    discover relisted reordered = .ok paths := by
  have hlisted : ∀ directory ∈ reordered, ¬ IsUnlistable relisted directory :=
    fun directory hdirectory hunlistable ↦ hlistable directory (hreordered.subset hdirectory)
      (hunlistable.of_relisting hwell hrelisted)
  obtain ⟨others, hothers, hdiscovery⟩ :=
    exists_discover_eq (hrelisted.isWellFormed hwell) hlisted
  rw [hothers, hpaths.unique ((hdiscovery.of_relisting hwell hrelisted).of_perm hreordered)]

end Found

/-! ### Entries -/

/-- The corpus of the files of some paths. What a file holds, or what bars it from being read, makes
one entry, a glyph or a rejection, whatever the other files hold. -/
inductive IsCorpusOf (tree : FileTree) : List Path → Corpus → Prop where
  | nil : IsCorpusOf tree [] {}
  | glyph {path : Path} {paths : List Path} {content : FileContent} {glyph : Glyph}
      {corpus : Corpus} (hread : tree.read path = .ok content)
      (hglyph : GlyphFile.ofContent path content = .ok glyph)
      (hrest : IsCorpusOf tree paths corpus) :
      IsCorpusOf tree (path :: paths) { corpus with glyphs := glyph :: corpus.glyphs }
  | rejection {path : Path} {paths : List Path} {content : FileContent} {error : GlyphFileError}
      {corpus : Corpus} (hread : tree.read path = .ok content)
      (herror : GlyphFile.ofContent path content = .error error)
      (hrest : IsCorpusOf tree paths corpus) :
      IsCorpusOf tree (path :: paths)
        { corpus with rejections := ⟨path, error.reason⟩ :: corpus.rejections }
  | barred {path : Path} {paths : List Path} {barrier : Barrier} {corpus : Corpus}
      (hread : tree.read path = .error (.barred barrier)) (hrest : IsCorpusOf tree paths corpus) :
      IsCorpusOf tree (path :: paths)
        { corpus with
          rejections := ⟨path, (FileFault.barred barrier).message⟩ :: corpus.rejections }

section Readings

variable {path : Path} {readings : List (Path × Except GlyphFileError Glyph)}

theorem ofReadings_cons_ok (glyph : Glyph) :
    ofReadings ((path, .ok glyph) :: readings) =
      { ofReadings readings with glyphs := glyph :: (ofReadings readings).glyphs } :=
  rfl

theorem ofReadings_cons_error (error : GlyphFileError) :
    ofReadings ((path, .error error) :: readings) =
      { ofReadings readings with
        rejections := ⟨path, error.reason⟩ :: (ofReadings readings).rejections } :=
  rfl

end Readings

/-- The readings of files that are at most barred make such a corpus. -/
theorem isCorpusOf_ofReadings (hread : ∀ path ∈ paths, (∃ content, tree.read path = .ok content) ∨
      ∃ barrier, tree.read path = .error (.barred barrier)) :
    IsCorpusOf tree paths (ofReadings (readings tree paths)) := by
  induction paths with
  | nil => exact .nil
  | cons path paths ih =>
    rw [List.forall_mem_cons] at hread
    obtain ⟨⟨content, hcontent⟩ | ⟨barrier, hbarred⟩, hrest⟩ := hread
    · rw [readings, List.map_cons, GlyphFile.read_eq_ofContent hcontent, ← readings]
      cases houtcome : GlyphFile.ofContent path content with
      | ok glyph =>
        rw [ofReadings_cons_ok]
        exact .glyph hcontent houtcome (ih hrest)
      | error error =>
        rw [ofReadings_cons_error]
        exact .rejection hcontent houtcome (ih hrest)
    · rw [readings, List.map_cons, GlyphFile.read_of_read_eq_error hbarred, ← readings,
        ofReadings_cons_error]
      exact .barred hbarred (ih hrest)

/-- The paths that the glyphs of a corpus come from and those rejected, in the order of the paths;
together they are the paths. -/
structure IsSplit (paths : List Path) (corpus : Corpus) (sources : List Path) : Prop where
  sources_eq : corpus.glyphs.map Glyph.source = sources.map some
  sources_sublist : sources.Sublist paths
  rejections_sublist : (corpus.rejections.map Rejection.path).Sublist paths
  perm : (sources ++ corpus.rejections.map Rejection.path).Perm paths

theorem IsCorpusOf.exists_isSplit (hcorpus : IsCorpusOf tree paths corpus) :
    ∃ sources, IsSplit paths corpus sources := by
  induction hcorpus with
  | nil => exact ⟨[], rfl, .slnil, .slnil, .refl _⟩
  | @glyph path paths content glyph corpus hread hglyph hrest ih =>
    obtain ⟨sources, hsources, hgiven, hrejected, hperm⟩ := ih
    have hsource : glyph.source = some path := by
      obtain ⟨_, _, -, -, hparse⟩ :=
        GlyphFile.read_eq_ok_iff.mp ((GlyphFile.read_eq_ofContent hread).trans hglyph)
      exact (GlyphFile.drawn_of_parse hparse).2.2
    refine ⟨path :: sources, ?_, hgiven.cons_cons path, hrejected.cons path, hperm.cons path⟩
    rw [List.map_cons, List.map_cons, hsource, hsources]
  | @rejection path paths _ _ corpus _ _ _ ih | @barred path paths _ corpus _ _ ih =>
    obtain ⟨sources, hsources, hgiven, hrejected, hperm⟩ := ih
    exact ⟨sources, hsources, hgiven.cons path, hrejected.cons_cons path,
      List.perm_middle.trans (hperm.cons path)⟩

/-- Glyph files are read alike in every relisting. -/
theorem read_eq_of_relisting (hwell : tree.IsWellFormed)
    (hrelisted : relisted.IsRelisting tree) (path : Path) :
    GlyphFile.read relisted path = GlyphFile.read tree path := by
  rw [GlyphFile.read, GlyphFile.read, GlyphFile.readText, GlyphFile.readText,
    hrelisted.read_eq hwell]

/-! ### Reading -/

/-- Directories that can be listed are read as one corpus, in whatever order they are given and
listed and by any number of workers but none: of each file directly inside one of them that has the
name of a glyph file there is one entry, which its path and its content alone decide, or what bars
it from being read, and glyphs and rejections are each in the order of the paths. A strict reading
gives the same, unless a file is rejected: then it fails with the error of the first one. -/
theorem readWith_orderFree (hwell : tree.IsWellFormed)
    (hlistable : ∀ directory ∈ directories, ¬ IsUnlistable tree directory) :
    ∃ paths sources corpus, IsDiscovery tree directories paths ∧ IsCorpusOf tree paths corpus ∧
      IsSplit paths corpus sources ∧
      sources.Pairwise (Path.precedes · · = true) ∧
      (corpus.rejections.map Rejection.path).Pairwise (Path.precedes · · = true) ∧
      ∀ relisted reordered workers, relisted.IsRelisting tree → reordered.Perm directories →
        ((∀ number ∈ workers, 0 < number) →
          readWith relisted reordered workers false = .ok corpus ∧
          (corpus.rejections = [] → readWith relisted reordered workers true = .ok corpus) ∧
          ∀ rejection later, corpus.rejections = rejection :: later →
            ∃ error, GlyphFile.read tree rejection.path = .error error ∧
              error.reason = rejection.reason ∧
              readWith relisted reordered workers true = .error (.rejected error)) ∧
        ((∃ number ∈ workers, number ≤ 0) →
          ∀ strict, readWith relisted reordered workers strict = .error .noWorkers) := by
  obtain ⟨paths, -, hpaths⟩ := exists_discover_eq hwell hlistable
  have hcorpus := isCorpusOf_ofReadings (hpaths.read_eq hwell hlistable)
  obtain ⟨sources, hsplit⟩ := hcorpus.exists_isSplit
  refine ⟨paths, sources, _, hpaths, hcorpus, hsplit,
    hpaths.sorted.sublist hsplit.sources_sublist, hpaths.sorted.sublist hsplit.rejections_sublist,
    fun relisted reordered workers hrelisted hreordered ↦ ?_⟩
  have hdiscover := hpaths.discover_eq hwell hlistable hrelisted hreordered
  have hread := read_eq_of_relisting hwell hrelisted
  have hreadings : readings relisted paths = readings tree paths :=
    List.map_congr_left fun path _ ↦ congrArg (path, ·) (hread path)
  refine ⟨fun hworkers ↦ ?_, readWith_eq_noWorkers hdiscover⟩
  rw [← hreadings]
  refine ⟨readWith_false_eq hdiscover hworkers, readWith_true_eq_ok hdiscover hworkers,
    fun rejection later hfirst ↦ ?_⟩
  obtain ⟨error, herror, hreason, hstrict⟩ :=
    exists_readWith_true_eq_error hdiscover hworkers hfirst
  exact ⟨error, (hread _).symm.trans herror, hreason, hstrict⟩

/-- A letter among a file that may not be read, one that is not UTF-8 and one that names no
components, in a directory that is listed forwards and backwards, and given before and after one
that is not there. -/
theorem readWith_orderFree_brokenFiles :
    let locked : FileNode := .file (.bytes []) { reading := some .denied }
    let letter : FileNode := .file (.bytes (Text.Utf8.encode "# B (U+0042)\n\nX\n".toList))
    let broken : FileNode := .file (.bytes [0xFF])
    let bare : FileNode := .file (.bytes (Text.Utf8.encode "# components:\n\nX\n".toList))
    let tree := ((((FileTree.empty []).add ["g", "A.glyph"] locked).add ["g", "B.glyph"]
      letter).add ["g", "C.glyph"] broken).add ["g", "D.glyph"] bare
    let relisted := ((((FileTree.empty []).add ["g", "D.glyph"] bare).add ["g", "C.glyph"]
      broken).add ["g", "B.glyph"] letter).add ["g", "A.glyph"] locked
    let directories := [Path.ofString "g", Path.ofString "h"]
    let glyph : Glyph :=
      { label := "B", codepoint := some 0x42, grid := [[true]], rasterLines := ["X"]
        source := some (Path.ofString "g/B.glyph") }
    let unreadable : GlyphFileError := .unreadable "g/A.glyph" (.file (.barred .denied))
    let refused := ["g/A.glyph", "g/C.glyph", "g/D.glyph"].map Path.ofString
    tree.IsWellFormed ∧ (∀ directory ∈ directories, ¬ IsUnlistable tree directory) ∧
      relisted.IsRelisting tree ∧
      ∃ corpus, corpus.glyphs = [glyph] ∧ corpus.rejections.map Rejection.path = refused ∧
        readWith relisted directories.reverse (some 4) false = .ok corpus ∧
        readWith relisted directories.reverse (some 4) true = .error (.rejected unreadable) ∧
        readWith relisted directories.reverse (some 0) true = .error .noWorkers := by
  intro locked letter broken bare tree relisted directories glyph unreadable refused
  have hempty : (FileTree.empty []).IsWellFormed := ⟨by decide, by decide⟩
  have hwell : tree.IsWellFormed :=
    (((hempty.add (by decide) _).add (by decide) _).add (by decide) _).add (by decide) _
  have hrelisted : relisted.IsRelisting tree := ⟨rfl, by decide +kernel⟩
  let found := ["g/A.glyph", "g/B.glyph", "g/C.glyph", "g/D.glyph"].map Path.ofString
  have hdiscover : discover tree directories = .ok found := by
    have hlistings : directories.mapM (listing? tree) = .ok [some found, none] := by
      decide +kernel
    have hsorted : found.Pairwise (Path.precedes · · = true) := by decide +kernel
    rw [discover, hlistings]
    simp only [List.filterMap_cons, id_eq, List.filterMap_nil, List.flatten_cons,
      List.flatten_nil, List.append_nil, List.mergeSort_of_pairwise hsorted]
  have hlistable : ∀ directory ∈ directories, ¬ IsUnlistable tree directory := by
    intro directory hdirectory hunlistable
    obtain ⟨fault, hfault⟩ := exists_discover_eq_error_iff.mpr ⟨directory, hdirectory, hunlistable⟩
    exact absurd (hdiscover.symm.trans hfault) nofun
  obtain ⟨-, -, corpus, -, -, -, -, -, hreadings⟩ := readWith_orderFree hwell hlistable
  have hworkers : ∀ number ∈ some (4 : Int), 0 < number := by decide
  obtain ⟨hread, -, hstrict⟩ := (hreadings relisted directories.reverse (some 4) hrelisted
    (List.reverse_perm _)).1 hworkers
  have hnone := (hreadings relisted directories.reverse (some 0) hrelisted
    (List.reverse_perm _)).2 ⟨0, rfl, by decide⟩ true
  -- The corpus is that of the directories as they are given and listed in the tree itself.
  have hcorpus := (hreadings tree directories (some 4) ⟨rfl, .refl _⟩ (.refl _)).1 hworkers
  obtain rfl := Except.ok.inj (hcorpus.1.symm.trans (readWith_false_eq hdiscover hworkers))
  have hglyphs : (ofReadings (readings tree found)).glyphs = [glyph] := by decide +kernel
  have hrejected : (ofReadings (readings tree found)).rejections.map Rejection.path = refused := by
    decide +kernel
  have hunreadable : GlyphFile.read tree (Path.ofString "g/A.glyph") = .error unreadable := by
    decide +kernel
  obtain ⟨rejection, later, hrejections, hpath, -⟩ := List.map_eq_cons_iff.mp hrejected
  obtain ⟨error, herror, -, hfailed⟩ := hstrict rejection later hrejections
  rw [hpath, hunreadable] at herror
  rw [Except.error.inj herror]
  exact ⟨hwell, hlistable, hrelisted, _, hglyphs, hrejected, hread, hfailed, hnone⟩

/-- A letter alone is read by one worker. By none it is not read, nor is it if the name of another
directory is too long. -/
theorem not_readWith_orderFree_oneLetter :
    let letter := Text.Utf8.encode "# A (U+0041)\n\nX\n".toList
    let tree := (FileTree.empty []).add ["g", "A.glyph"] (.file (.bytes letter))
    let directory := Path.ofString "g"
    let absent := Path.ofComponents .none [String.ofList (List.replicate 256 'x')]
    let glyph : Glyph :=
      { label := "A", codepoint := some 0x41, grid := [[true]], rasterLines := ["X"]
        source := some (Path.ofString "g/A.glyph") }
    readWith tree [directory] (some 1) false = .ok ⟨[glyph], []⟩ ∧
      readWith tree [directory] (some 0) false = .error .noWorkers ∧
      readWith tree [directory, absent] (some 1) false = .error (.file .nameTooLong) := by
  intro letter tree directory absent glyph
  have hlong : tree.locate absent = .error .nameTooLong := by
    refine FileTree.locate_eq_nameTooLong (fun c hc ↦ ?_) (by decide +kernel) (by decide +kernel)
    rw [String.toList_ofList] at hc
    rw [List.eq_of_mem_replicate hc]
    decide
  have hlisted : ∀ earlier ∈ [directory], ∃ listing, listing? tree earlier = .ok listing := by
    have hlisting : listing? tree directory = .ok (some [directory.child "A.glyph"]) := by
      decide +kernel
    simpa using ⟨_, hlisting⟩
  have hdiscover : discover tree [directory, absent] = .error .nameTooLong :=
    discover_eq_error_of_locate hlisted hlong rfl
  refine ⟨by decide +kernel, by decide +kernel, ?_⟩
  rw [readWith, hdiscover]

end PixelFont.Corpus
