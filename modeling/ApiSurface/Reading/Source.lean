import ApiSurface.Files.Disk
import ApiSurface.Json.Fault
import ApiSurface.Model.Graph
import ApiSurface.Naming.GraphName

/-!
# Sources

A source is a symbol graph file that is to be decoded. It is known by its path; what is in
it is either given along with the path or read from the disk when it is decoded.

## Main definitions

* `Source`: a source; `Source.read`: what is in it.
* `Request`: a source with the name its path ends in.
* `DecodedGraph`: the graph decoded from a source.
* `DecodeFault`: why a source cannot be decoded.
-/

namespace ApiSurface

open Json

/-- A symbol graph file. -/
structure Source where
  path : Path
  /-- What is in the file, unless it is on the disk. -/
  contents : Option (List UInt8)

/-- The bytes of a source. -/
def Source.read (disk : Disk) (source : Source) : Except FileFault (List UInt8) :=
  match source.contents with
  | some bytes => .ok bytes
  | none => disk.read source.path

/-- A source that has been accepted by its name. -/
structure Request where
  source : Source
  name : GraphName

/-- The request for a source. -/
def Source.request (source : Source) : Except NameFault Request :=
  (GraphName.ofPath source.path).map fun name => ⟨source, name⟩

/-- A graph as it was decoded. -/
structure DecodedGraph where
  path : Path
  name : GraphName
  graph : SymbolGraph

/-- Why a source cannot be decoded. -/
inductive DecodeFault
  | file (fault : FileFault)
  | json (diagnostic : Diagnostic)
  deriving DecidableEq

/-- The wording for a fault. -/
def DecodeFault.message : DecodeFault → String
  | .file fault => "I/O error: " ++ fault.message
  | .json diagnostic => "JSON error: " ++ diagnostic.message

end ApiSurface
