import ApiSurface.Files.Disk

/-!
# Walks

A walk visits a directory and everything below it, and follows the links it meets. A link to a
directory that the walk is inside of is not followed.

## Main definitions

* `Disk.walk`: the files that a walk visits, and what it had to skip.
* `WalkFault`: why a walk skips an entry.
-/

namespace ApiSurface

/-- Why a walk skips an entry. -/
inductive WalkFault
  /-- The entry cannot be looked up. -/
  | unreadable (path : Path) (fault : FileFault)
  /-- The entry leads back to a directory that the walk is inside of. -/
  | loop (path ancestor : Path)

/-- The wording for a fault. -/
def WalkFault.message : WalkFault → String
  | .unreadable path fault =>
    path.display ++ ": IO error for operation on " ++ path.display ++ ": " ++ fault.message
  | .loop path ancestor =>
    "File system loop found: " ++ path.display ++ " points to an ancestor " ++ ancestor.display

/-- A directory that a walk is inside of. -/
structure Ancestor where
  location : Location
  /-- The path by which the walk came there. -/
  path : Path

namespace Disk

/-- Visits what is at a location, which the walk has reached by a path, and everything below
it. The bound is on the length of a branch. -/
def walkFrom (disk : Disk) :
    Nat → List Ancestor → Path → Location → List (Except WalkFault Path)
  | 0, _, _, _ => []
  | bound + 1, ancestors, path, location =>
    match disk.entry? location with
    | some (.file _) => [.ok path]
    | some (.directory entries) =>
      let ancestors := ⟨location, path⟩ :: ancestors
      entries.flatMap fun (name, entry) =>
        let child := path.join ⟨name⟩
        match entry with
        | .link _ =>
          match disk.find child with
          | .error fault => [.error (.unreadable child fault)]
          | .ok target =>
            match ancestors.find? fun a => a.location = target with
            | some ancestor => [.error (.loop child ancestor.path)]
            | none => walkFrom disk bound ancestors child target
        | _ => walkFrom disk bound ancestors child (location ++ [name])
    | _ => []

/-- A bound on the length of the branches of a walk. A branch follows fewer links than there
are entries, since each leads to a directory it is not yet inside of, and between two links
it goes down by fewer steps than there are entries. -/
def walkBound (disk : Disk) : Nat := (disk.root.count + 1) * (disk.root.count + 1)

/-- The path that stands for standard input, where there are no files to visit. -/
def standardInput : Path := .ofText "-"

/-- Visits what a path leads to and everything below it: the paths of the files, and
what is skipped. -/
def walk (disk : Disk) (path : Path) : Except FileFault (List (Except WalkFault Path)) := do
  let location ← disk.find path
  if path.components = standardInput.components then return []
  return disk.walkFrom disk.walkBound [] path location

end Disk

end ApiSurface
