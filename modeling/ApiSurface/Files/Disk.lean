import ApiSurface.Files.Path

/-!
# Disks

A disk is a tree of directories, files and symbolic links, together with a working directory
from which relative paths start. Looking a path up goes through it piece by piece and
follows the links on the way.

## Main definitions

* `Entry`, `Disk`: what is on a disk.
* `Disk.place`, `Disk.find`: where a path leads.
* `Disk.read`, `Disk.write`, `Disk.remove`, `Disk.makeDirectories`: the operations on a path.
* `FileFault`: why an operation is refused.
-/

namespace ApiSurface

/-! ### Faults -/

/-- Why the operating system refuses an operation. -/
inductive FileFault
  | notFound
  | exists
  | notDirectory
  | isDirectory
  | nameTooLong
  | tooManyLinks
  /-- A path has a zero byte. -/
  | zeroByte
  deriving DecidableEq

/-- The wording for a fault. -/
def FileFault.message : FileFault → String
  | .notFound => "No such file or directory (os error 2)"
  | .exists => "File exists (os error 17)"
  | .notDirectory => "Not a directory (os error 20)"
  | .isDirectory => "Is a directory (os error 21)"
  | .nameTooLong => "File name too long (os error 36)"
  | .tooManyLinks => "Too many levels of symbolic links (os error 40)"
  | .zeroByte => "file name contained an unexpected NUL byte"

/-! ### Trees -/

/-- An entry of a directory, with all that is below it. The entries of a directory are in
the order in which the directory enumerates them. -/
inductive Entry
  | file (contents : List UInt8)
  | directory (entries : List (FileName × Entry))
  | link (target : Path)
  deriving Inhabited

/-- The names that lead to an entry from the root. -/
abbrev Location := List FileName

namespace Entry

/-- The directory without entries. -/
def emptyDirectory : Entry := .directory []

/-- Whether the entry is a directory. -/
def isDirectory : Entry → Bool
  | .directory _ => true
  | _ => false

/-- The entry at a location below this one. -/
def below? : Location → Entry → Option Entry
  | [], entry => some entry
  | name :: location, .directory entries => (entries.lookup name).bind (below? location)
  | _, _ => none

/-- Changes the entry at a location below this one. -/
def modify (change : Entry → Entry) : Location → Entry → Entry
  | [], entry => change entry
  | name :: location, .directory entries =>
    .directory (entries.map fun item =>
      if item.1 = name then (name, modify change location item.2) else item)
  | _, entry => entry

/-- Puts an entry into a directory, in place of the one with the same name if there is one. -/
def put (name : FileName) (new : Entry) : Entry → Entry
  | .directory entries =>
    if entries.any fun item => item.1 = name then
      .directory (entries.map fun item => if item.1 = name then (name, new) else item)
    else .directory (entries ++ [(name, new)])
  | entry => entry

/-- Takes an entry out of a directory. -/
def drop (name : FileName) : Entry → Entry
  | .directory entries => .directory (entries.filter fun item => item.1 ≠ name)
  | entry => entry

mutual
/-- The number of entries, this one and those below it. -/
def count : Entry → Nat
  | .directory entries => countAll entries + 1
  | _ => 1

/-- The number of entries in a directory and below it. -/
def countAll : List (FileName × Entry) → Nat
  | [] => 0
  | (_, entry) :: entries => entry.count + countAll entries
end

end Entry

/-! ### Where a path leads -/

/-- Where a path leads: to an entry, or to a name in a directory that is not taken yet. -/
inductive Place
  | taken (location : Location)
  | free (directory : Location) (name : FileName)

/-- How long a name may be. -/
def maxNameLength : Nat := 255

/-- How long a path may be. -/
def maxPathLength : Nat := 4095

/-- How many links a path may lead through. -/
def maxLinks : Nat := 40

/-- What is asked of the name that a path ends in. -/
inductive Ending
  /-- A link is gone through, and a slash after the name asks for a directory. -/
  | followed
  /-- The name itself is meant, even if it is that of a link; a slash after it makes
  no difference. -/
  | named
  /-- The name of a file that may be made: as `followed`, but a slash
  after the name is refused. -/
  | written
  deriving DecidableEq

/-- Goes from a directory through the pieces of a path. A link is left to `jump`, with the
directory it is in, its target, and the pieces that remain; but a link at the very end is
gone through only if `ending` says so. -/
def walkPieces (root : Entry) (ending : Ending)
    (jump : Location → Path → List FileName → Except FileFault Place) :
    Location → List FileName → Except FileFault Place
  | here, [] => .ok (.taken here)
  | here, piece :: rest =>
    match root.below? here with
    | some (.directory entries) =>
      if piece = [] || piece = Path.dot then walkPieces root ending jump here rest
      else if piece = Path.dots then walkPieces root ending jump here.dropLast rest
      else
        let isLast := rest.all (· = [])
        if isLast && !rest.isEmpty && ending = .written then .error .isDirectory
        else if maxNameLength < piece.length then .error .nameTooLong
        else
          match entries.lookup piece with
          | some entry =>
            if isLast && ending = .named then .ok (.taken (here ++ [piece]))
            else
              match entry with
              | .link target => jump here target rest
              | _ => walkPieces root ending jump (here ++ [piece]) rest
          | none =>
            if rest.isEmpty || (isLast && ending = .named) then .ok (.free here piece)
            else .error .notFound
    | some _ => .error .notDirectory
    | none => .error .notFound

/-- Goes from a directory through the pieces of a path and through at most so many links. -/
def walkLinks (root : Entry) (ending : Ending) :
    Nat → Location → List FileName → Except FileFault Place
  | 0 => walkPieces root ending fun _ _ _ => .error .tooManyLinks
  | links + 1 => walkPieces root ending fun here target rest =>
    walkLinks root ending links (if target.isAbsolute then [] else here)
      (target.pieces ++ rest)

/-- A disk and the working directory. -/
structure Disk where
  /-- What is at the root. -/
  root : Entry
  /-- Where the working directory is. -/
  here : Location

namespace Disk

/-- The entry at a location. -/
def entry? (disk : Disk) (location : Location) : Option Entry := disk.root.below? location

/-- Whether there is a directory at a location. -/
def isDirectoryAt (disk : Disk) (location : Location) : Bool :=
  (disk.entry? location).any Entry.isDirectory

/-- Where a path leads from the working directory. -/
def place (disk : Disk) (ending : Ending) (path : Path) : Except FileFault Place :=
  if path.bytes.contains 0 then .error .zeroByte
  else if path.bytes = [] then .error .notFound
  else if maxPathLength < path.bytes.length then .error .nameTooLong
  else
    walkLinks disk.root ending maxLinks (if path.isAbsolute then [] else disk.here) path.pieces

/-- The location of the entry that a path leads to. -/
def find (disk : Disk) (path : Path) : Except FileFault Location := do
  match ← disk.place .followed path with
  | .taken location => return location
  | .free _ _ => throw .notFound

/-- Whether a path leads to a file. -/
def isFile (disk : Disk) (path : Path) : Bool :=
  match disk.find path with
  | .ok location => (disk.entry? location).any fun entry => !entry.isDirectory
  | .error _ => false

/-- Whether a path leads to a directory. -/
def isDirectory (disk : Disk) (path : Path) : Bool :=
  match disk.find path with
  | .ok location => disk.isDirectoryAt location
  | .error _ => false

/-! ### Operations -/

/-- The contents of the file that a path leads to. -/
def read (disk : Disk) (path : Path) : Except FileFault (List UInt8) := do
  match disk.entry? (← disk.find path) with
  | some (.file contents) => return contents
  | some _ => throw .isDirectory
  | none => throw .notFound

/-- The names in the directory that a path leads to, in the order of its enumeration. -/
def names (disk : Disk) (path : Path) : Except FileFault (List FileName) := do
  match disk.entry? (← disk.find path) with
  | some (.directory entries) => return entries.map Prod.fst
  | some _ => throw .notDirectory
  | none => throw .notFound

/-- Puts an entry into the directory at a location. -/
def put (disk : Disk) (directory : Location) (name : FileName) (entry : Entry) : Disk :=
  { disk with root := disk.root.modify (Entry.put name entry) directory }

/-- Writes a file, in place of the one that the path leads to if there is one. -/
def write (disk : Disk) (path : Path) (contents : List UInt8) : Except FileFault Disk := do
  match ← disk.place .written path with
  | .free directory name => return disk.put directory name (.file contents)
  | .taken location =>
    if disk.isDirectoryAt location then throw .isDirectory
    return { disk with root := disk.root.modify (fun _ => .file contents) location }

/-- Removes the file or link that a path names, unless a slash after the name asks for
a directory. -/
def remove (disk : Disk) (path : Path) : Except FileFault Disk := do
  match ← disk.place .named path with
  | .free _ _ => throw .notFound
  | .taken location =>
    if disk.isDirectoryAt location then throw .isDirectory
    if path.endsInSlash then throw .notDirectory
    match location.getLast? with
    | some name =>
      return { disk with root := disk.root.modify (Entry.drop name) location.dropLast }
    | none => throw .isDirectory

/-- Puts a new entry where a path leads, if the name is not taken. -/
def create (disk : Disk) (path : Path) (entry : Entry) : Except FileFault Disk := do
  match ← disk.place .named path with
  | .free directory name => return disk.put directory name entry
  | .taken _ => throw .exists

/-- Makes a directory and, if they are missing, the directories above it, given the
paths of all of them, from the longest to the shortest. A directory that is there
already is left alone. -/
def makeEach (disk : Disk) : List Path → Except FileFault Disk
  | [] => .ok disk
  | path :: above =>
    let settle (disk : Disk) (fault : FileFault) : Except FileFault Disk :=
      if disk.isDirectory path then .ok disk else .error fault
    match disk.create path .emptyDirectory with
    | .ok disk => .ok disk
    | .error .notFound => do
      let disk ← makeEach disk above
      match disk.create path .emptyDirectory with
      | .ok disk => .ok disk
      | .error fault => settle disk fault
    | .error fault => settle disk fault

/-- Makes a directory and the directories above it, as far as they are missing. -/
def makeDirectories (disk : Disk) (path : Path) : Except FileFault Disk :=
  disk.makeEach path.ancestors

end Disk

end ApiSurface
