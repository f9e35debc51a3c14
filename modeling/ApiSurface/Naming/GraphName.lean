import ApiSurface.Files.Path

/-!
# Names of symbol graph files

A symbol graph file is named for modules. `Kit.symbols.json` holds the symbols of a module,
`Kit@Base.symbols.json` those that a module adds to another one. A longer name is either
that of a module with bystanders or an older spelling of an extension; which of the two, the
file itself tells.

## Main definitions

* `GraphName`: a name; `GraphName.text`: how it is spelled.
* `GraphName.ofText`, `GraphName.ofPath`: reading a name.
* `NameFault`: why a name is none of a symbol graph file.
* `Path.isGraphPath`: whether a path is taken for that of a symbol graph file.
-/

namespace ApiSurface

/-! ### Faults -/

/-- Why a name, shown in the fault, is none of a symbol graph file. -/
inductive NameFault
  | missingExtension (shown : String)
  | emptySegment (shown : String)
  | notText (shown : String)
  deriving DecidableEq

/-- The wording for a fault. -/
def NameFault.message : NameFault → String
  | .missingExtension shown => shown ++ ": expected a `.symbols.json` file name"
  | .emptySegment shown => shown ++ ": empty module name segment"
  | .notText shown => shown ++ ": file name is not valid UTF-8"

/-! ### Names -/

/-- The name of a symbol graph file, by the number of its segments. -/
inductive GraphName
  /-- One segment: the module. -/
  | main (module : String)
  /-- Two segments: the module that adds symbols, and the one it adds them to. -/
  | extension (extending extended : String)
  /-- Three or more segments. -/
  | compound (first : String) (middle : List String) (last : String)
  deriving DecidableEq

namespace GraphName

/-- What every name ends in. -/
def suffix : String := ".symbols.json"

/-- Separates segments. -/
def separator : Char := '@'

/-- The segments of a name. -/
def segments : GraphName → List String
  | main module => [module]
  | extension extending extended => [extending, extended]
  | compound first middle last => first :: middle ++ [last]

/-- The spelling of a name. -/
def text (name : GraphName) : String :=
  String.ofList (List.intercalate [separator] (name.segments.map String.toList) ++
    suffix.toList)

/-- The name with the given segments. -/
def ofSegments (first : String) : List String → GraphName
  | [] => main first
  | [second] => extension first second
  | second :: third :: rest =>
    compound first (second :: (third :: rest).dropLast) ((third :: rest).getLast (by simp))

/-- Reads a name. -/
def ofText (s : String) : Except NameFault GraphName :=
  match suffix.toList.isSuffixOf? s.toList with
  | none => .error (.missingExtension s)
  | some stem =>
    let (first, later) := Text.pieces separator stem
    if first.isEmpty || later.any List.isEmpty then .error (.emptySegment s)
    else .ok (ofSegments (String.ofList first) (later.map String.ofList))

/-- Reads the name that a path ends in. -/
def ofPath (path : Path) : Except NameFault GraphName :=
  match path.fileName? with
  | none => .error (.missingExtension path.display)
  | some bytes =>
    match Text.ofBytes? bytes with
    | none => .error (.notText path.display)
    | some s => ofText s

/-! ### What a name tells -/

/-- The module that the file is grouped under. -/
def primary : GraphName → String
  | main module => module
  | extension _ extended => extended
  | compound first _ _ => first

/-- The module that the file extends, if the name tells it. -/
def extended? : GraphName → Option String
  | extension _ extended => some extended
  | _ => none

/-- The modules after the first of a longer name: bystanders, if it is the name of a module
with bystanders. -/
def followers : GraphName → List String
  | compound _ middle last => middle ++ [last]
  | _ => []

/-- Whether the file is taken, by its name alone, for one with the symbols of a module. -/
def isMain : GraphName → Bool
  | extension _ _ => false
  | _ => true

end GraphName

/-- Whether a path is taken for that of a symbol graph file: its name has the suffix
and is longer. -/
def Path.isGraphPath (path : Path) : Bool :=
  match path.fileName?.bind Text.ofBytes? with
  | some s => GraphName.suffix.toList.isSuffixOf s.toList && s != GraphName.suffix
  | none => false

end ApiSurface
