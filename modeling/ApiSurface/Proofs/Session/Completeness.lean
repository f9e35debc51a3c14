import ApiSurface.Proofs.Files.Walks
import ApiSurface.Proofs.Session.Discovery

/-!
# Complete discovery

Discovery under a root that leads to a tree of files and directories finds all symbol graph
files of the tree, and nothing else. It puts their paths in the strict order of their
components, in which there is only one list of them. So the order in which directories
enumerate their entries does not show in what is found, and neither in the order in which
the files are loaded.

The root `-` is left out: a walk takes it for standard input, and visits nothing of the tree.

## Main definitions

* `ListsGraphs`: the paths of the symbol graph files of a tree, in their order.
* `FindsGraphs`: discovery under a root gives these paths, whatever the order of directories.

## Main results

* `ListsGraphs.unique`: a tree has one list of paths.
* `discover_findsGraphs`: discovery is complete, and does not depend on
  the order of directories.
-/

namespace ApiSurface

open Std

/-! ### Strict order -/

/-- Sorting puts what a comparison tells apart into a strict order. -/
theorem increasing_mergeSort {α : Type} (cmp : α → α → Ordering) [TransCmp cmp] {l : List α}
    (apart : l.Pairwise fun a b => cmp a b ≠ .eq) :
    (l.mergeSort fun a b => (cmp a b).isLE).Pairwise fun a b => cmp a b = .lt := by
  have hsymm {a b : α} (h : cmp a b ≠ .eq) : cmp b a ≠ .eq :=
    fun heq => h (OrientedCmp.eq_symm heq)
  have happart : (l.mergeSort fun a b => (cmp a b).isLE).Pairwise fun a b => cmp a b ≠ .eq :=
    ((List.mergeSort_perm l _).pairwise_iff hsymm).mpr apart
  refine (List.Pairwise.and (pairwise_mergeSort_isLE cmp l) happart).imp fun {a b} h => ?_
  obtain ⟨hle, hne⟩ := h
  cases hab : cmp a b with
  | lt => rfl
  | eq => exact absurd hab hne
  | gt =>
    rw [hab] at hle
    cases hle

variable {disk : Disk} {root path : Path} {location : Location} {tree tree' : Entry}
  {paths paths' : List Path}

/-! ### The list of paths -/

/-- Whether some paths are those of the symbol graph files of a tree, which a root leads to,
in the strict order of their components. -/
structure ListsGraphs (root : Path) (tree : Entry) (paths : List Path) : Prop where
  /-- The files of the tree are listed whose paths are taken for those of symbol
  graph files. -/
  mem_iff : ∀ path, path ∈ paths ↔
    ∃ below contents, tree.below? below = some (.file contents) ∧
    path = root.graft below ∧ path.isGraphPath = true
  increasing : paths.Pairwise fun p q => compare p q = .lt
  once : paths.Nodup
  /-- No directory is listed, whatever its name. -/
  noDirectory : ∀ below entries, tree.below? below = some (.directory entries) →
    root.graft below ∉ paths

/-- A tree has one list of paths, whatever the order of its directories. -/
theorem ListsGraphs.unique (h : ListsGraphs root tree paths)
    (h' : ListsGraphs root tree' paths') (reordered : tree.Reordered tree') :
    paths = paths' := by
  have hmem (path : Path) : path ∈ paths ↔ path ∈ paths' := by
    rw [h.mem_iff, h'.mem_iff]
    constructor
    · rintro ⟨below, contents, hfile, hpath⟩
      exact ⟨below, contents, reordered.file hfile, hpath⟩
    · rintro ⟨below, contents, hfile, hpath⟩
      exact ⟨below, contents, reordered.symm.file hfile, hpath⟩
  exact eq_of_increasing id ((List.perm_ext_iff_of_nodup h.once h'.once).mpr hmem)
    h.increasing h'.increasing

/-- Entries at different locations of a tree have paths that compare as different. -/
theorem compare_graft_ne (root : Path) {below below' : Location} {e e' : Entry}
    (htree : tree.IsTree) (hbelow : tree.below? below = some e)
    (hbelow' : tree.below? below' = some e') (hne : below ≠ below') :
    compare (root.graft below) (root.graft below') ≠ .eq := by
  rw [ne_eq, Path.compare_eq_iff]
  intro heq
  exact hne (Path.eq_of_components_graft (htree.isEntryName hbelow)
    (htree.isEntryName hbelow') heq)

/-- What a walk through a tree visits. -/
def treeSteps (root : Path) (tree : Entry) : List (Except WalkFault Path) :=
  tree.files.map fun below => .ok (root.graft below)

theorem visitedFiles_treeSteps (root : Path) (tree : Entry) :
    visitedFiles (treeSteps root tree) = tree.files.map root.graft := by
  rw [visitedFiles, treeSteps, List.filterMap_map]
  exact congrFun List.filterMap_eq_map tree.files

/-- A walk through a tree meets no faults. -/
theorem metFaults_treeSteps (root : Path) (tree : Entry) :
    metFaults (treeSteps root tree) = [] := by
  rw [metFaults, treeSteps, List.filterMap_map]
  exact List.filterMap_eq_nil_iff.mpr fun _ _ => rfl

/-- The paths of symbol graph files in a walk through a tree are those of the tree. -/
theorem listsGraphs_graphPaths (htree : tree.IsTree) :
    ListsGraphs root tree (graphPaths (treeSteps root tree)) := by
  have hmem (path : Path) : path ∈ graphPaths (treeSteps root tree) ↔
      ∃ below contents, tree.below? below = some (.file contents) ∧ path = root.graft below ∧
        path.isGraphPath = true := by
    rw [mem_graphPaths, treeSteps, List.mem_map]
    constructor
    · rintro ⟨⟨below, hbelow, hpath⟩, hgraph⟩
      obtain ⟨contents, hfile⟩ := (Entry.mem_files_iff htree).mp hbelow
      exact ⟨below, contents, hfile, (Except.ok.inj hpath).symm, hgraph⟩
    · rintro ⟨below, contents, hfile, rfl, hgraph⟩
      exact ⟨⟨below, (Entry.mem_files_iff htree).mpr ⟨contents, hfile⟩, rfl⟩, hgraph⟩
  have hincreasing :
      (graphPaths (treeSteps root tree)).Pairwise fun p q => compare p q = .lt := by
    refine increasing_mergeSort compare (List.Pairwise.filter _ ?_)
    rw [visitedFiles_treeSteps, List.pairwise_map]
    refine (Entry.nodup_files htree).imp_of_mem fun {below below'} hbelow hbelow' hne => ?_
    obtain ⟨contents, hfile⟩ := (Entry.mem_files_iff htree).mp hbelow
    obtain ⟨contents', hfile'⟩ := (Entry.mem_files_iff htree).mp hbelow'
    exact compare_graft_ne root htree hfile hfile' hne
  refine ⟨hmem, hincreasing, hincreasing.imp ne_of_increasing, ?_⟩
  intro below entries hdirectory hlisted
  obtain ⟨below', contents, hfile, hpath, -⟩ := (hmem _).mp hlisted
  by_cases hsame : below = below'
  · rw [hsame, hfile] at hdirectory
    cases hdirectory
  · refine compare_graft_ne root htree hdirectory hfile hsame ?_
    rw [hpath]
    exact ReflCmp.compare_self

/-! ### Discovery -/

/-- Discovery under a root that leads to a tree finds the symbol graph files of the tree,
and skips nothing. -/
theorem discover_eq (hfind : disk.find root = .ok location)
    (hentry : disk.entry? location = some tree) (htree : tree.IsTree)
    (hroot : root.components ≠ Disk.standardInput.components) :
    discover disk root = ⟨[.filesFound (graphPaths (treeSteps root tree)).length root],
      .ok (graphPaths (treeSteps root tree))⟩ := by
  have hwalk : disk.walk root = .ok (treeSteps root tree) :=
    Disk.walk_eq_files hfind hentry htree hroot
  rw [discover_of_walk hwalk, metFaults_treeSteps]
  rfl

/-- Whether discovery under a root finds the symbol graph files of a tree. -/
structure FindsGraphs (disk : Disk) (root : Path) (tree : Entry) : Prop where
  lists : ∃ paths, (discover disk root).result = .ok paths ∧ ListsGraphs root tree paths
  /-- On a disk that enumerates directories in other orders, nothing else is found. -/
  reordered : ∀ disk' : Disk, disk'.here = disk.here → disk.root.Reordered disk'.root →
    discover disk' root = discover disk root

/-- **Complete discovery.** Under every root that leads to a tree of files and directories,
and is not taken for standard input, discovery finds the symbol graph files of the tree,
whatever the order of directories. The root that `hroot` leaves out is `-`, by its
components. There a walk does not visit every entry: it reads standard input and visits
none, so that discovery gives the empty list even if there is a directory with this name. -/
theorem discover_findsGraphs (hfind : disk.find root = .ok location)
    (hentry : disk.entry? location = some tree) (htree : tree.IsTree)
    (hroot : root.components ≠ Disk.standardInput.components) :
    FindsGraphs disk root tree := by
  have hdiscover := discover_eq hfind hentry htree hroot
  constructor
  case lists => exact ⟨_, congrArg Traced.result hdiscover, listsGraphs_graphPaths htree⟩
  case reordered =>
    intro disk' hhere hreordered
    obtain ⟨tree', hentry', hsame⟩ := hreordered.below hentry
    have hfind' : disk'.find root = .ok location := by
      rw [← hfind]
      exact (Disk.find_of_reordered hreordered hhere.symm root).symm
    have hpaths : graphPaths (treeSteps root tree') = graphPaths (treeSteps root tree) :=
      ((listsGraphs_graphPaths htree).unique (listsGraphs_graphPaths (hsame.isTree htree))
        hsame).symm
    rw [hdiscover, discover_eq hfind' hentry' (hsame.isTree htree) hroot, hpaths]

/-- A directory with symbol graph files at several depths, one of them hidden, and with a
directory that has the name of one. -/
def scatteredTree : Entry := .directory [
  (Text.bytes "b", .directory [
    (Text.bytes "Zeta.symbols.json", .file []),
    (Text.bytes "notes.txt", .file [])]),
  (Text.bytes ".build", .directory [
    (Text.bytes "ios", .directory [(Text.bytes "MyKit.symbols.json", .file [])])]),
  (Text.bytes "Old.symbols.json", .emptyDirectory),
  (Text.bytes "Alpha.symbols.json", .file [])]

/-- A disk with this directory for the working directory. -/
def scatteredDisk : Disk :=
  ⟨.directory [(Text.bytes "out", scatteredTree)], [Text.bytes "out"]⟩

/-- The directory is a tree. -/
theorem isTree_scatteredTree : scatteredTree.IsTree := by
  have hempty : Entry.emptyDirectory.IsTree :=
    Entry.isTree_directory (by decide) (by decide) nofun
  have hfile : (Entry.file []).IsTree := Entry.isTree_file []
  refine Entry.isTree_directory (by decide +kernel) (by decide +kernel) ?_
  simp only [List.forall_mem_cons]
  refine ⟨?_, ?_, hempty, hfile, nofun⟩
  · refine Entry.isTree_directory (by decide +kernel) (by decide +kernel) ?_
    simp only [List.forall_mem_cons]
    exact ⟨hfile, hfile, nofun⟩
  · refine Entry.isTree_directory (by decide +kernel) (by decide +kernel) ?_
    simp only [List.forall_mem_cons]
    refine ⟨Entry.isTree_directory (by decide +kernel) (by decide +kernel) ?_, nofun⟩
    simp only [List.forall_mem_cons]
    exact ⟨hfile, nofun⟩

/-- The files are found under the working directory. -/
theorem discover_findsGraphs_scattered :
    scatteredDisk.find (.ofText ".") = .ok [Text.bytes "out"] ∧
    scatteredDisk.entry? [Text.bytes "out"] = some scatteredTree ∧ scatteredTree.IsTree ∧
    (Path.ofText ".").components ≠ Disk.standardInput.components ∧
    FindsGraphs scatteredDisk (.ofText ".") scatteredTree := by
  have hfind : scatteredDisk.find (.ofText ".") = .ok [Text.bytes "out"] := by decide +kernel
  have hentry : scatteredDisk.entry? [Text.bytes "out"] = some scatteredTree := by
    change scatteredDisk.root.below? [Text.bytes "out"] = _
    simp [scatteredDisk]
  have hroot : (Path.ofText ".").components ≠ Disk.standardInput.components := by
    decide +kernel
  exact ⟨hfind, hentry, isTree_scatteredTree, hroot,
    discover_findsGraphs hfind hentry isTree_scatteredTree hroot⟩

end ApiSurface
