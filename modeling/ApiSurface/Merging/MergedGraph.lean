import ApiSurface.Digest.Xxh3
import ApiSurface.Merging.UniqueGraph

/-!
# Merged graphs

A merged graph is the one graph of a role, made from all graphs of that role. Its digest is
that of its JSON text, which exists if all its paths are texts.

## Main definitions

* `MergedGraph`: a merged graph; `MergedGraph.value`: how it is written.
* `MergedGraph.fingerprint`: the digest of its text.
* `PathNotText`: why a merged graph cannot be written.
-/

namespace ApiSurface

open Json

/-- A path that is no text stands in the way of writing. -/
structure PathNotText where
  path : Path

/-- The wording for a path that is no text. -/
def PathNotText.message (_ : PathNotText) : String := "path contains invalid UTF-8 characters"

/-- How a path is written. -/
def Path.value (path : Path) : Except PathNotText Value :=
  match path.text? with
  | some s => .ok (.text s)
  | none => .error ⟨path⟩

/-- The graph of a role. -/
structure MergedGraph where
  role : Role
  /-- The file that the symbols come from. -/
  basePath : Path
  /-- The files that availability was added from, in the order in which that was done. -/
  overlayPaths : List Path
  metadata : Metadata
  module : Module
  symbols : Table String Symbol
  relationships : List Relationship

namespace MergedGraph

/-- How a merged graph is written. -/
def value (graph : MergedGraph) : Except PathNotText Value := do
  let basePath ← graph.basePath.value
  let overlayPaths ← graph.overlayPaths.mapM Path.value
  return .object [
    ("role", graph.role.value),
    ("basePath", basePath),
    ("overlayPaths", .array overlayPaths),
    ("metadata", Metadata.shape.encode graph.metadata),
    ("module", Module.shape.encode graph.module),
    ("symbols", (Wire.Shape.table Symbol.shape).encode graph.symbols),
    ("relationships", (Wire.Shape.list Relationship.shape).encode graph.relationships)]

/-- The compact JSON text of a merged graph. -/
def render (graph : MergedGraph) : Except PathNotText String := graph.value.map Value.render

/-- The digest of the text of a merged graph. -/
def fingerprint (graph : MergedGraph) : Except PathNotText UInt64 :=
  graph.render.map fun text => Digest.xxh3 (Text.bytes text)

/-- The module that the graph is grouped under. -/
def moduleName (graph : MergedGraph) : String := graph.role.moduleName

/-- Whether the symbols are those of a module itself. -/
def isMain (graph : MergedGraph) : Bool := graph.role.isMain

/-- The symbol with an identifier. -/
def symbol? (graph : MergedGraph) (precise : String) : Option Symbol :=
  graph.symbols.get? precise

/-- The module that the symbols were authored in: the extending module if they are added to
another one, else the module that the file declares. -/
def author (graph : MergedGraph) : String := graph.role.extending?.getD graph.module.name

end MergedGraph

end ApiSurface
