import ApiSurface.Files.Walk
import ApiSurface.Proofs.Files.Trees
import ApiSurface.Proofs.Results

/-!
# Walks through trees

A walk goes into every directory it meets, hidden or not, and follows links. In a tree there
are none, so it meets no faults, and it goes down by one name at a time until it is at the
files. It visits each of them once, by the path of its root continued by the names that lead
to the file. The bound on the walk is not met: a tree has at least as many entries as its
branches are long, and the disk that it is on has no fewer.

## Main results

* `Disk.walkFrom_eq_files`: what a walk from a tree visits.
* `Disk.walk_eq_files`: what a walk under a root visits that leads to a tree.
-/

namespace ApiSurface.Disk

open Entry

variable {disk : Disk} {root : Path} {location : Location} {tree : Entry}

/-- A walk from a tree visits its files. The induction is on the bound, which every step
down uses up by one, and which the entries that are left never exceed. -/
theorem walkFrom_eq_files (htree : tree.IsTree) {bound : Nat} (hbound : tree.count ≤ bound)
    (hentry : disk.entry? location = some tree) (ancestors : List Ancestor) (path : Path) :
    disk.walkFrom bound ancestors path location = tree.files.map fun below =>
      .ok (path.graft below) := by
  induction bound generalizing tree location ancestors path with
  | zero => exact absurd hbound (Nat.not_le_of_lt tree.count_pos)
  | succ bound ih =>
    rw [walkFrom, hentry]
    cases tree with
    | file contents => rfl
    | link target => exact absurd rfl (htree.noLinks [] target)
    | directory entries =>
      rw [files_directory, List.map_flatMap]
      refine List.flatMap_congr fun item hitem => ?_
      obtain ⟨name, child⟩ := item
      have hchild : child.IsTree := htree.of_mem hitem
      have hcount : child.count ≤ bound :=
        Nat.le_trans (count_le_countAll hitem) (Nat.le_of_succ_le_succ hbound)
      have hlocation : disk.entry? (location ++ [name]) = some child := by
        have hlookup := htree.lookup_eq_some_iff.mpr hitem
        exact (below?_concat hentry name).trans hlookup
      cases child with
      | link target => exact absurd rfl (hchild.noLinks [] target)
      | file contents =>
        dsimp only
        rw [ih hchild hcount hlocation, List.map_map]
        rfl
      | directory later =>
        dsimp only
        rw [ih hchild hcount hlocation, List.map_map]
        rfl

/-- What is on a disk is within the bound of a walk. -/
theorem count_le_walkBound (hentry : disk.entry? location = some tree) :
    tree.count ≤ disk.walkBound := by
  calc tree.count ≤ disk.root.count := count_le_of_below? hentry
    _ ≤ disk.root.count + 1 := Nat.le_succ _
    _ ≤ disk.walkBound := Nat.le_mul_of_pos_right _ (Nat.succ_pos _)

/-- A walk under a root that leads to a tree visits its files. -/
theorem walk_eq_files (hfind : disk.find root = .ok location)
    (hentry : disk.entry? location = some tree) (htree : tree.IsTree)
    (hroot : root.components ≠ standardInput.components) :
    disk.walk root = .ok (tree.files.map fun below => .ok (root.graft below)) := by
  rw [walk, hfind, Except.ok_bind, if_neg hroot,
    walkFrom_eq_files htree (count_le_walkBound hentry) hentry]
  rfl

end ApiSurface.Disk
