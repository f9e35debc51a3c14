import ApiSurface.Log.Event
import ApiSurface.Merging.MergedGraph
import ApiSurface.Merging.Overlay

/-!
# Consolidation

The graphs of one role form a group. The group has a base, whose symbols the merged graph
takes over, and overlays, which add to them. A graph for the usual environment precedes one
for another, and paths decide between the rest, so the outcome does not depend on the order
in which the graphs are given.

## Main definitions

* `Group`: a base and overlays in order of precedence.
* `groupByRole`: the groups of some graphs.
* `Group.merge`: the merged graph of a group.
* `consolidate`: the merged graphs of some graphs, in the order in which they are listed.
-/

namespace ApiSurface

open Std

/-! ### Precedence -/

/-- Whether a graph is for another environment than the usual one. -/
def UniqueGraph.isVariant (graph : UniqueGraph) : Bool := graph.module.platform.hasEnvironment

/-- Compares two graphs of one role by precedence: those for the usual environment come
first, then the path decides. -/
def precedence : UniqueGraph → UniqueGraph → Ordering :=
  compareLex (compareOn UniqueGraph.isVariant) (compareOn UniqueGraph.path)

/-- Adds a graph to a list in order of precedence. -/
def insertByPrecedence (graph : UniqueGraph) : List UniqueGraph → List UniqueGraph
  | [] => [graph]
  | first :: rest =>
    if precedence graph first = .lt then graph :: first :: rest
    else first :: insertByPrecedence graph rest

/-! ### Groups -/

/-- The graphs of one role, of which there is at least one. -/
structure Group where
  /-- The graph that precedes the others. -/
  base : UniqueGraph
  /-- The others, in order of precedence. -/
  overlays : List UniqueGraph

namespace Group

/-- Adds a graph to a group. -/
def add (group : Group) (graph : UniqueGraph) : Group :=
  if precedence graph group.base = .lt then ⟨graph, group.base :: group.overlays⟩
  else ⟨group.base, insertByPrecedence graph group.overlays⟩

end Group

/-- Puts a graph into the group of its role. -/
def addToGroup (groups : Table Role Group) (graph : UniqueGraph) : Table Role Group :=
  groups.alter graph.role fun
    | none => ⟨graph, []⟩
    | some group => group.add graph

/-- The groups of some graphs. -/
def groupByRole (graphs : List UniqueGraph) : Table Role Group :=
  graphs.foldl addToGroup .empty

/-! ### Merging -/

/-- What consolidation has done. -/
structure Tally where
  overlaysApplied : Nat
  /-- How many statements overlays added. -/
  overlayItems : Nat
  /-- How many assumed statements were added. -/
  assumedItems : Nat
  deriving DecidableEq

namespace Tally

/-- Nothing has been done. -/
def zero : Tally := ⟨0, 0, 0⟩

/-- What has been done in two places. -/
def add (s t : Tally) : Tally :=
  ⟨s.overlaysApplied + t.overlaysApplied, s.overlayItems + t.overlayItems,
    s.assumedItems + t.assumedItems⟩

end Tally

/-- The merged graph that a base graph alone makes. -/
def UniqueGraph.asMerged (base : UniqueGraph) (role : Role) : MergedGraph :=
  { role
    basePath := base.path
    overlayPaths := []
    metadata := base.metadata
    module := base.module
    symbols := base.symbols
    relationships := base.relationships }

namespace MergedGraph

/-- Adds overlays to a merged graph, one after the other: the graph, and how many
statements were added. -/
def addOverlays (graph : MergedGraph) :
    List UniqueGraph → Traced MergeFault (MergedGraph × Nat)
  | [] => pure (graph, 0)
  | overlay :: rest => do
    let overlaid ← Traced.ofExcept (applyOverlay graph.basePath graph.symbols overlay)
    Traced.note (overlaid.events graph.basePath overlay.path)
    let graph := { graph with
      symbols := overlaid.symbols
      overlayPaths := graph.overlayPaths ++ [overlay.path] }
    let (graph, added) ← addOverlays graph rest
    return (graph, overlaid.added + added)

/-- Adds what is assumed for the module that the symbols were authored in: the graph, and
how many statements were added. -/
def addAssumed (graph : MergedGraph) (assumptions : Assumptions) :
    Except MergeFault (MergedGraph × Nat) :=
  match assumptions.get? graph.author with
  | none => .ok (graph, 0)
  | some assumed =>
    (applyAssumed graph.basePath graph.symbols assumed).map fun (symbols, added) =>
      ({ graph with symbols }, added)

end MergedGraph

/-- The merged graph of a group, and what was done for it. -/
def Group.merge (group : Group) (role : Role) (assumptions : Assumptions) :
    Traced MergeFault (MergedGraph × Tally) := do
  let (graph, overlayItems) ← (group.base.asMerged role).addOverlays group.overlays
  let (graph, assumedItems) ← Traced.ofExcept (graph.addAssumed assumptions)
  return (graph, ⟨group.overlays.length, overlayItems, assumedItems⟩)

/-! ### All graphs -/

/-- The first path of a list that is among those before it or in a given set. -/
def firstRepeated (seen : Table Path Unit) : List Path → Option Path
  | [] => none
  | path :: rest =>
    if seen.contains path then some path else firstRepeated (seen.insert path ()) rest

/-- Merged graphs in the order in which they are listed. Of two roles one is listed before
the other, so none gets lost. -/
def listed (graphs : List MergedGraph) : List MergedGraph :=
  (Table.ofList (graphs.map fun graph => (Role.Listing.mk graph.role, graph))).values

/-- The merged graphs of some graphs, in the order in which they are listed, and what was
done for them. Groups are merged in the order of their roles. -/
def consolidate (graphs : List UniqueGraph) (assumptions : Assumptions) :
    Traced MergeFault (List MergedGraph × Tally) := do
  match firstRepeated .empty (graphs.map UniqueGraph.path) with
  | some path => throw (.suppliedTwice path)
  | none => pure ()
  Traced.note (graphs.flatMap fun graph => graph.name.overruleEvents graph.module)
  let merged ← Traced.forEach (fun (role, group) => Group.merge group role assumptions)
    (groupByRole graphs).entries
  return (listed (merged.map Prod.fst), (merged.map Prod.snd).foldl Tally.add .zero)

end ApiSurface
