import ApiSurface.Proofs.Merging.Listing
import ApiSurface.Proofs.Naming.Paths
import ApiSurface.Proofs.Session.Stages
import ApiSurface.Session.Directory

/-!
# Discovery and names

Discovery takes a path for that of a symbol graph file without reading its name, and the
load that follows reads the names of all paths that were found. The two rules agree: no
file is passed over whose name can be read, and the load refuses a path only for an empty
segment of its name.

## Main definitions

* `AgreesWithNames`: discovery agrees with the reading of names.

## Main results

* `discover_result`, `mem_graphPaths`: what discovery finds.
* `loadDirectory_name_fault_iff`: which name the load of a directory is refused for.
* `discover_agreesWithNames`: discovery agrees with the reading of names on every disk.
-/

namespace ApiSurface

variable {disk : Disk} {root path : Path} {steps : List (Except WalkFault Path)}

/-! ### What is found -/

/-- Discovery finds the paths of symbol graph files that the walk visits. -/
theorem discover_result (disk : Disk) (root : Path) :
    (discover disk root).result = ((disk.walk root).mapError .file).map graphPaths := by
  simp only [discover, Traced.result_bind, Traced.result_ofExcept, Traced.result_note,
    Traced.result_pure, Except.ok_bind]
  cases disk.walk root <;> rfl

/-- What discovery does after a walk. -/
theorem discover_of_walk (h : disk.walk root = .ok steps) : discover disk root =
    ⟨(metFaults steps).map (.entrySkipped root) ++
      [.filesFound (graphPaths steps).length root], .ok (graphPaths steps)⟩ := by
  rw [discover, h]
  rfl

/-- A walk visits the files that it has paths for. -/
theorem mem_visitedFiles : path ∈ visitedFiles steps ↔ .ok path ∈ steps := by
  rw [visitedFiles, List.mem_filterMap]
  constructor
  · rintro ⟨step, hmem, hstep⟩
    cases step with
    | ok other =>
      cases hstep
      exact hmem
    | error fault => cases hstep
  · intro hmem
    exact ⟨.ok path, hmem, rfl⟩

/-- Among the paths of a walk, those of symbol graph files are found. -/
theorem mem_graphPaths :
    path ∈ graphPaths steps ↔ .ok path ∈ steps ∧ path.isGraphPath = true := by
  rw [graphPaths, List.mem_mergeSort, List.mem_filter, mem_visitedFiles]

/-! ### Loading what is found -/

/-- The source for a file on the disk. -/
def Source.onDisk (path : Path) : Source := ⟨path, none⟩

/-- A load is refused for a name exactly if the sources are not all accepted by their names. -/
theorem loadGraphs_name_fault_iff {assumptions : Assumptions} {profile : Profile}
    {policy : Policy} {sources : List Source} {fault : NameFault} :
    (loadGraphs disk assumptions profile policy sources).result = .error (.name fault) ↔
      sources.mapM Source.request = .error fault := by
  rw [loadGraphs_result]
  constructor
  · intro h
    obtain h | ⟨requests, -, h⟩ := Except.bind_eq_error_iff.mp h
    · obtain ⟨fault', hfault', heq⟩ := Except.mapError_eq_error_iff.mp h
      cases heq
      exact hfault'
    -- Once all names are accepted, only decoding and consolidation can fail.
    · obtain h | ⟨decoded, -, h⟩ := Except.bind_eq_error_iff.mp h
      · obtain ⟨before, request, after, -, -, hrequest⟩ := Except.mapM_eq_error_iff.mp h
        obtain ⟨cause, hcause, -⟩ := Request.cause_of_decodeBy hrequest
        cases hcause
      · obtain h | ⟨merged, -, h⟩ := Except.bind_eq_error_iff.mp h
        · obtain ⟨cause, -, hcause⟩ := Except.mapError_eq_error_iff.mp h
          cases hcause
        · cases h
  · intro h
    rw [h]
    rfl

/-- The result of loading sources at once is that of the load of a loader that has just
been started. -/
theorem loadSources_result (disk : Disk) (host : Profile) (settings : Settings)
    (sources : List Source) :
    (loadSources disk host settings sources).result =
      (((Loader.start host settings .byFileCount sources).load disk).1.result.mapError
        .load).map fun report =>
          (((Loader.start host settings .byFileCount sources).load disk).2, report) := by
  simp only [loadSources, Traced.result_bind, Traced.result_mapError, Traced.result_pure]
  cases ((Loader.start host settings .byFileCount sources).load disk).1.result <;> rfl

/-- The same for a load of sources at once. -/
theorem loadSources_name_fault_iff {host : Profile} {settings : Settings}
    {sources : List Source} {fault : NameFault} :
    (loadSources disk host settings sources).result = .error (.load (.name fault)) ↔
      sources.mapM Source.request = .error fault := by
  rw [loadSources_result, Loader.load_start_result, Except.map_eq_error_iff,
    Except.mapError_eq_error_iff, ← loadGraphs_name_fault_iff]
  constructor
  · rintro ⟨cause, h, hcause⟩
    cases hcause
    exact Except.map_eq_error_iff.mp h
  · intro h
    exact ⟨_, Except.map_eq_error_iff.mpr h, rfl⟩

/-- Whether a name cannot be read whose path is the first such one among some paths. -/
def FirstUnnamed (paths : List Path) (fault : NameFault) : Prop :=
  ∃ before path after, paths = before ++ path :: after ∧
    (∀ other ∈ before, ∃ name, GraphName.ofPath other = .ok name) ∧
      GraphName.ofPath path = .error fault

/-- Files are not all accepted by their names exactly if one of these names is the first
that cannot be read. -/
theorem mapM_request_onDisk_error_iff {paths : List Path} {fault : NameFault} :
    (paths.map Source.onDisk).mapM Source.request = .error fault ↔
      FirstUnnamed paths fault := by
  have hname (other : Path) : (∃ request, (Source.onDisk other).request = .ok request) ↔
      ∃ name, GraphName.ofPath other = .ok name := by
    rw [Source.request, Source.onDisk]
    cases GraphName.ofPath other <;> simp [Except.map]
  rw [List.mapM_map, Except.mapM_eq_error_iff]
  simp only [Function.comp_apply, hname, Source.request_eq_error_iff]
  rfl

/-- The load of a directory is refused for the first name that cannot be read, in the order
of the paths that are found. -/
theorem loadDirectory_name_fault_iff {host : Profile} {settings : Settings}
    {fault : NameFault} :
    (loadDirectory disk host settings root).result = .error (.load (.name fault)) ↔
      ∃ paths, (discover disk root).result = .ok paths ∧ FirstUnnamed paths fault := by
  rw [loadDirectory, Traced.result_bind, Except.bind_eq_error_iff]
  constructor
  · rintro (h | ⟨paths, hpaths, h⟩)
    · rw [discover_result, Except.map_eq_error_iff, Except.mapError_eq_error_iff] at h
      obtain ⟨cause, -, hcause⟩ := h
      cases hcause
    · exact ⟨paths, hpaths, mapM_request_onDisk_error_iff.mp (loadSources_name_fault_iff.mp h)⟩
  · rintro ⟨paths, hpaths, hfirst⟩
    exact .inr ⟨paths, hpaths,
      loadSources_name_fault_iff.mpr (mapM_request_onDisk_error_iff.mpr hfirst)⟩

/-! ### Agreement -/

/-- Whether discovery under a root, and the load of what it finds, agree with the
reading of names. -/
structure AgreesWithNames (disk : Disk) (root : Path) : Prop where
  /-- A path is taken for that of a symbol graph file exactly if its name is read, or
  refused for an empty segment although it is longer than the bare suffix. -/
  taken_iff : ∀ path : Path, path.isGraphPath = true ↔
    (∃ name, GraphName.ofPath path = .ok name) ∨
    ∃ s, path.nameText? = some s ∧ GraphName.ofPath path = .error (.emptySegment s) ∧
      GraphName.suffix.length < s.length
  /-- No file that is visited is passed over if its name can be read. -/
  found : ∀ steps, disk.walk root = .ok steps →
    ∃ paths, (discover disk root).result = .ok paths ∧
    ∀ path name, .ok path ∈ steps → GraphName.ofPath path = .ok name → path ∈ paths
  /-- A name that the load is refused for is that of a file that was found, and
  lacks a segment. -/
  fault : ∀ host settings fault,
    (loadDirectory disk host settings root).result = .error (.load (.name fault)) →
    ∃ paths path s, (discover disk root).result = .ok paths ∧ path ∈ paths ∧
      path.nameText? = some s ∧ fault = .emptySegment s ∧ GraphName.LacksSegment s

/-- **Discovery and names.** On every disk and under every root, discovery and the load of
what it finds agree with the reading of names. -/
theorem discover_agreesWithNames (disk : Disk) (root : Path) : AgreesWithNames disk root := by
  constructor
  case taken_iff => exact fun path => GraphName.isGraphPath_iff
  case found =>
    intro steps hsteps
    refine ⟨graphPaths steps, by rw [discover_result, hsteps]; rfl,
      fun path name hmem hname => ?_⟩
    exact mem_graphPaths.mpr ⟨hmem, GraphName.isGraphPath_iff.mpr (.inl ⟨name, hname⟩)⟩
  case fault =>
    intro host settings fault h
    obtain ⟨paths, hpaths, before, path, after, rfl, -, hfault⟩ :=
      loadDirectory_name_fault_iff.mp h
    have hmem : path ∈ before ++ path :: after := List.mem_append_right _ List.mem_cons_self
    have hgraph : path.isGraphPath = true := by
      have hresult := hpaths
      rw [discover_result, Except.map_eq_ok_iff] at hresult
      obtain ⟨steps, -, hsteps⟩ := hresult
      exact (mem_graphPaths.mp (hsteps ▸ hmem)).2
    obtain ⟨s, hs, hcause, hlacks⟩ := GraphName.fault_of_isGraphPath hgraph hfault
    exact ⟨_, path, s, hpaths, hmem, hs, hcause, hlacks⟩

end ApiSurface
