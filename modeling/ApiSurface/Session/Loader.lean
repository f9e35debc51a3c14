import ApiSurface.Merging.Consolidation
import ApiSurface.Reading.Decoder

/-!
# Loading

A loader has a list of sources and, once they have been loaded, the merged graphs, which
it hands out one after the other. A load either gives all graphs or fails with the first
fault, and then the loader is as it was before. Sources are read when they are loaded,
and never again.

## Main definitions

* `loadGraphs`: the merged graphs of some sources, and a report.
* `Loader`: a loader; `Loader.load`, `Loader.next`, `Loader.rewind`, `Loader.graphs`.
-/

namespace ApiSurface

/-! ### Loads -/

/-- What a load has done. -/
structure Report where
  plan : Plan
  files : Nat
  graphs : Nat
  /-- How many symbols were dropped in favour of others with their identifier. -/
  collapsed : Nat
  tally : Tally
  deriving DecidableEq

/-- What is logged about a load. -/
def Report.event (report : Report) : Event :=
  .loaded report.files report.graphs report.collapsed report.tally.overlaysApplied
    report.tally.overlayItems

/-- Accepts all sources by their names, or finds the first that has none
of a symbol graph file. -/
def acceptAll : List Source → Except NameFault (List Request)
  | [] => .ok []
  | source :: rest => do
    let request ← source.request
    return request :: (← acceptAll rest)

/-- How many entries of some graphs were dropped in favour of others. -/
def collapsedIn (graphs : List UniqueGraph) : Nat :=
  graphs.foldl (fun count graph => count + graph.collapsed) 0

/-- The merged graphs of some sources, and a report. All names are looked at before any
source is read, and all sources are decoded before any graphs are merged. The workers that
decode are taken to be there: that their pool cannot be built (`failed to build decode
pool`) is a failure of the host, and no load fails by it here. -/
def loadGraphs (disk : Disk) (assumptions : Assumptions) (profile : Profile) (policy : Policy)
    (sources : List Source) : Traced LoadFault (Report × List MergedGraph) := do
  let requests ← Traced.ofExcept ((acceptAll sources).mapError .name)
  let plan := policy.plan requests.length profile
  Traced.note [.decodingStarted requests.length plan profile.workerCount]
  let decoded ← plan.decode profile disk requests
  let unique := decoded.map DecodedGraph.unique
  Traced.note (unique.flatMap UniqueGraph.collapseEvents)
  let (graphs, tally) ← (consolidate unique assumptions).mapError .merge
  let report : Report :=
    ⟨plan, requests.length, graphs.length, collapsedIn unique, tally⟩
  Traced.note [report.event]
  return (report, graphs)

/-! ### Loaders -/

/-- How far a loader has come. -/
inductive Progress
  /-- Nothing has been loaded. -/
  | pending
  /-- Graphs have been loaded, and some of them handed out. -/
  | loaded (graphs : List MergedGraph) (handedOut : Nat)

/-- A loader. -/
structure Loader where
  sources : List Source
  assumptions : Assumptions
  profile : Profile
  policy : Policy
  progress : Progress

namespace Loader

/-- A loader that has not loaded anything, on a host. -/
def start (host : Profile) (settings : Settings) (policy : Policy) (sources : List Source) :
    Loader :=
  ⟨sources, settings.assumptions, Profile.ofSettings host settings, policy, .pending⟩

/-- Whether the sources have been loaded. -/
def isLoaded (loader : Loader) : Bool :=
  match loader.progress with
  | .pending => false
  | .loaded _ _ => true

/-- Loads the sources from a disk as it is now: the report, and the loader afterwards. -/
def load (loader : Loader) (disk : Disk) : Traced LoadFault Report × Loader :=
  match loader.progress with
  | .loaded _ _ => (throw .alreadyLoaded, loader)
  | .pending =>
    let outcome :=
      loadGraphs disk loader.assumptions loader.profile loader.policy loader.sources
    match outcome.result with
    | .ok (report, graphs) =>
      (⟨outcome.events, .ok report⟩, { loader with progress := .loaded graphs 0 })
    | .error fault => (⟨outcome.events, .error fault⟩, loader)

/-- The next graph, if there is one, and the loader afterwards. -/
def next (loader : Loader) : Option MergedGraph × Loader :=
  match loader.progress with
  | .pending => (none, loader)
  | .loaded graphs handedOut =>
    match graphs[handedOut]? with
    | some graph => (some graph, { loader with progress := .loaded graphs (handedOut + 1) })
    | none => (none, loader)

/-- The loader with none of its graphs handed out. -/
def rewind (loader : Loader) : Loader :=
  match loader.progress with
  | .pending => loader
  | .loaded graphs _ => { loader with progress := .loaded graphs 0 }

/-- All graphs that have been loaded. -/
def graphs (loader : Loader) : List MergedGraph :=
  match loader.progress with
  | .pending => []
  | .loaded graphs _ => graphs

end Loader

end ApiSurface
