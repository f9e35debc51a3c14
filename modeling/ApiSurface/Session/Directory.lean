import ApiSurface.Session.Loader

/-!
# Loading a directory

The symbol graph files in a directory are those below it, however deep and however hidden,
whose names are taken for names of symbol graph files. The usual way to load is at once:
some sources, or all symbol graph files in a directory, by the usual policy.

## Main definitions

* `graphPaths`: the paths of symbol graph files among those that a walk has visited.
* `discover`: the paths of the symbol graph files under a root, in increasing order.
* `loadSources`: a loader that has loaded some sources, and its report.
* `loadDirectory`: the same for the symbol graph files in a directory.
-/

namespace ApiSurface

/-! ### Discovery -/

/-- The files that a walk has visited. -/
def visitedFiles (steps : List (Except WalkFault Path)) : List Path :=
  steps.filterMap fun
    | .ok path => some path
    | .error _ => none

/-- The faults that a walk has met. -/
def metFaults (steps : List (Except WalkFault Path)) : List WalkFault :=
  steps.filterMap fun
    | .ok _ => none
    | .error fault => some fault

/-- The paths of symbol graph files among those that a walk has visited, in
increasing order. -/
def graphPaths (steps : List (Except WalkFault Path)) : List Path :=
  ((visitedFiles steps).filter Path.isGraphPath).mergeSort fun p q => (compare p q).isLE

/-- The paths of the symbol graph files under a root, in increasing order. What cannot be
read is skipped. -/
def discover (disk : Disk) (root : Path) : Traced Failure (List Path) := do
  let steps ← Traced.ofExcept ((disk.walk root).mapError .file)
  Traced.note ((metFaults steps).map (.entrySkipped root))
  let paths := graphPaths steps
  Traced.note [.filesFound paths.length root]
  return paths

/-! ### Loads -/

/-- A loader that has loaded some sources, and its report. -/
def loadSources (disk : Disk) (host : Profile) (settings : Settings) (sources : List Source) :
    Traced Failure (Loader × Report) := do
  let (outcome, loader) := (Loader.start host settings .byFileCount sources).load disk
  let report ← outcome.mapError .load
  return (loader, report)

/-- A loader that has loaded all symbol graph files in a directory, and its report. -/
def loadDirectory (disk : Disk) (host : Profile) (settings : Settings) (root : Path) :
    Traced Failure (Loader × Report) := do
  let paths ← discover disk root
  loadSources disk host settings (paths.map fun path => ⟨path, none⟩)

end ApiSurface
