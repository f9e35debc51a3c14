import ApiSurface.Text.Lossy
import ApiSurface.Text.Words

/-!
# Paths

A path is a run of bytes in which slashes separate names. It is kept as it was given, but
compared by its components, so that repeated slashes, a slash at the end and single dots
inside make no difference.

## Main definitions

* `Path`, `Component`: paths and what they consist of; `Path.components`.
* `Path.fileName?`: the name that a path ends in.
* `Path.join`: a path continued by another one.
-/

namespace ApiSurface

open Std

/-- A name in a directory. -/
abbrev FileName := List UInt8

/-! ### Components -/

/-- A part of a path. -/
inductive Component
  /-- A slash at the start. -/
  | root
  /-- A single dot at the start. -/
  | current
  /-- Two dots. -/
  | parent
  | name (bytes : FileName)
  deriving DecidableEq

namespace Component

/-- The place of a kind of component among the kinds. -/
def kind : Component → Nat
  | root => 0
  | current => 1
  | parent => 2
  | name _ => 3

/-- The bytes of a name; none for other components. -/
def bytes : Component → List UInt8
  | name bytes => bytes
  | _ => []

/-- Components are in order of their kind, and names in order of their bytes. -/
instance : Ord Component := ⟨compareLex (compareOn kind) (compareOn bytes)⟩

instance : TransOrd Component :=
  inferInstanceAs (TransCmp (compareLex (compareOn kind) (compareOn bytes)))

end Component

/-! ### Paths -/

/-- A path, as it was given. -/
structure Path where
  bytes : List UInt8

namespace Path

/-- The byte that separates names. -/
def slash : UInt8 := 47

/-- The name that stands for the directory itself. -/
def dot : FileName := [46]

/-- The name that stands for the directory above. -/
def dots : FileName := [46, 46]

/-- The path that a text spells. -/
def ofText (s : String) : Path := ⟨Text.bytes s⟩

/-- The pieces of a path between slashes, the empty ones included. -/
def pieces (p : Path) : List FileName := Text.allPieces slash p.bytes

/-- Whether a path starts from the root. -/
def isAbsolute (p : Path) : Bool := p.bytes.head? == some slash

/-- Whether a path ends in a slash. -/
def endsInSlash (p : Path) : Bool := p.bytes.getLast? == some slash

/-- The component that a piece of a path is, unless it makes no difference. -/
def component? (piece : FileName) : Option Component :=
  if piece = [] || piece = dot then none
  else if piece = dots then some .parent
  else some (.name piece)

/-- The components of a path. -/
def components (p : Path) : List Component :=
  let rest := p.pieces.filterMap component?
  if p.isAbsolute then .root :: rest
  else if p.pieces.head? = some dot then .current :: rest
  else rest

/-- Paths are in the order of their components. -/
instance : Ord Path := ⟨compareOn components⟩

instance : TransOrd Path := inferInstanceAs (TransCmp (compareOn components))

/-- The name that a path ends in, if it ends in one. -/
def fileName? (p : Path) : Option FileName :=
  match p.components.getLast? with
  | some (.name bytes) => some bytes
  | _ => none

/-- A path continued by another one. A path that starts from the root stands for itself. -/
def join (p q : Path) : Path :=
  if q.isAbsolute then q
  else if p.bytes = [] || p.endsInSlash then ⟨p.bytes ++ q.bytes⟩
  else ⟨p.bytes ++ slash :: q.bytes⟩

/-- The bytes of a component. -/
def pieceOf : Component → List UInt8
  | .root => []
  | .current => dot
  | .parent => dots
  | .name bytes => bytes

/-- The path with the given components. -/
def ofComponents (components : List Component) : Path :=
  if components = [.root] then ⟨[slash]⟩
  else ⟨List.intercalate [slash] (components.map pieceOf)⟩

/-- The paths of the directories above a path, from the longest to the shortest. -/
def above (p : Path) : List Path :=
  let components := p.components
  ((List.range (components.length - 1)).map fun n =>
    ofComponents (components.take (n + 1))).reverse

/-- The path and the paths of the directories above it, from the longest to the shortest. -/
def ancestors (p : Path) : List Path := if p.bytes = [] then [] else p :: p.above

/-- A path as it is shown. -/
def display (p : Path) : String := Text.showBytes p.bytes

/-- The text that a path spells, if it spells one. -/
def text? (p : Path) : Option String := Text.ofBytes? p.bytes

end Path

end ApiSurface
