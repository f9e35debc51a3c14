import ApiSurface.Proofs.Files.Paths
import Mathlib.Data.List.Nodup

/-!
# Trees of files

What is on a disk is known by what is at each location: a file with its contents, a link
with its target, or a directory with the names of its entries. The order in which a
directory enumerates its entries does not show in this, so two disks that differ in nothing
else have the same locations, and every path leads to the same one.

A tree of files and directories is one without links, in which the names in a directory are
told apart. The locations of its files can be collected, and each of them is collected once.

## Main definitions

* `Entry.IsTree`: trees of files and directories.
* `Entry.files`: the locations of the files below an entry.
* `Entry.Reordered`: entries that only differ in the order of their directories.

## Main results

* `Entry.mem_files_iff`, `Entry.nodup_files`: the locations of the files of a tree.
* `Entry.count_le_of_below?`: an entry has no more entries below it than one above it.
* `Disk.find_of_reordered`: where a path leads does not depend on the order of directories.
-/

namespace ApiSurface

namespace Entry

variable {e e' : Entry} {entries entries' : List (FileName × Entry)} {name : FileName}
  {location : Location}

/-! ### What is below an entry -/

@[simp] theorem below?_nil (e : Entry) : e.below? [] = some e := by
  cases e <;> rfl

@[simp] theorem below?_cons (entries : List (FileName × Entry)) (name : FileName)
    (location : Location) :
    (directory entries).below? (name :: location) =
      (entries.lookup name).bind (below? location) := rfl

/-- Only a directory has something below it, in the entry under the first name. -/
theorem below?_cons_eq_some_iff : e.below? (name :: location) = some e' ↔ ∃ entries child,
    e = .directory entries ∧ entries.lookup name = some child ∧
    child.below? location = some e' := by
  cases e with
  | directory entries => simp [Option.bind_eq_some_iff]
  | file contents => simp [below?]
  | link target => simp [below?]

/-- Going down by one name. -/
theorem below?_singleton (entries : List (FileName × Entry)) (name : FileName) :
    (directory entries).below? [name] = entries.lookup name := by
  rw [below?_cons]
  cases entries.lookup name with
  | none => rfl
  | some child => rw [Option.bind_some, below?_nil]

/-- Going down in two steps. -/
theorem below?_append (location later : Location) (e : Entry) :
    e.below? (location ++ later) = (e.below? location).bind (below? later) := by
  induction location generalizing e with
  | nil => rw [List.nil_append, below?_nil, Option.bind_some]
  | cons name location ih =>
    cases e with
    | directory entries =>
      rw [List.cons_append, below?_cons, below?_cons, Option.bind_assoc]
      exact congrArg _ (funext ih)
    | file contents => rfl
    | link target => rfl

/-- Going down by one more name. -/
theorem below?_concat (h : e.below? location = some (.directory entries)) (name : FileName) :
    e.below? (location ++ [name]) = entries.lookup name := by
  rw [below?_append, h, Option.bind_some, below?_singleton]

/-- What is found under a name is an entry with this name. -/
theorem mem_of_lookup (h : entries.lookup name = some e) : (name, e) ∈ entries := by
  obtain ⟨before, after, rfl, -⟩ := List.lookup_eq_some_iff.mp h
  exact List.mem_append_right _ List.mem_cons_self

/-- Under names that are told apart each entry is found. -/
theorem lookup_eq_some_iff_mem (h : (entries.map Prod.fst).Nodup) :
    entries.lookup name = some e ↔ (name, e) ∈ entries := by
  induction entries with
  | nil => simp
  | cons item entries ih =>
    obtain ⟨hitem, hrest⟩ := List.nodup_cons.mp h
    rw [List.lookup_cons, List.mem_cons]
    by_cases hname : name = item.1
    · have hnot : (name, e) ∉ entries := fun hmem => hitem (hname ▸ List.mem_map_of_mem hmem)
      rw [beq_iff_eq.mpr hname, or_iff_left hnot, hname, Option.some.injEq, Prod.ext_iff]
      exact ⟨fun heq => ⟨rfl, heq.symm⟩, fun heq => heq.2.symm⟩
    · rw [beq_eq_false_iff_ne.mpr hname, or_iff_right fun heq => hname (congrArg Prod.fst heq)]
      exact ih hrest

/-- Induction on the entries of a directory. -/
@[elab_as_elim]
theorem rec_entries {P : Entry → Prop} (file : ∀ contents, P (.file contents))
    (directory : ∀ entries : List (FileName × Entry), (∀ item ∈ entries, P item.2) →
      P (.directory entries))
    (link : ∀ target, P (.link target)) (e : Entry) : P e := by
  refine @Entry.rec P (fun entries => ∀ item ∈ entries, P item.2) (fun item => P item.2) file
    directory link ?_ ?_ ?_ e
  · exact nofun
  · intro item entries hitem hentries
    exact List.forall_mem_cons.mpr ⟨hitem, hentries⟩
  · exact fun _ _ h => h

/-! ### Sizes -/

theorem count_pos (e : Entry) : 0 < e.count := by
  cases e <;> simp [count]

/-- An entry of a directory has no more entries than the directory has below it. -/
theorem count_le_countAll {item : FileName × Entry} (h : item ∈ entries) :
    item.2.count ≤ countAll entries := by
  induction entries with
  | nil => cases h
  | cons first entries ih =>
    rw [countAll]
    obtain rfl | h := List.mem_cons.mp h
    · exact Nat.le_add_right _ _
    · exact Nat.le_trans (ih h) (Nat.le_add_left _ _)

/-- An entry has no more entries than one that it is below. -/
theorem count_le_of_below? (h : e.below? location = some e') : e'.count ≤ e.count := by
  induction location generalizing e with
  | nil =>
    rw [below?_nil, Option.some.injEq] at h
    exact Nat.le_of_eq (congrArg count h.symm)
  | cons name location ih =>
    obtain ⟨entries, child, rfl, hchild, h⟩ := below?_cons_eq_some_iff.mp h
    calc e'.count ≤ child.count := ih h
      _ ≤ countAll entries := count_le_countAll (mem_of_lookup hchild)
      _ ≤ (directory entries).count := Nat.le_succ _

/-! ### Trees -/

/-- Whether an entry is a tree of files and directories: there are no links, and the names
in a directory are those of entries and told apart. -/
structure IsTree (e : Entry) : Prop where
  nodup : ∀ location entries, e.below? location = some (.directory entries) →
    (entries.map Prod.fst).Nodup
  names : ∀ location entries, e.below? location = some (.directory entries) →
    ∀ name ∈ entries.map Prod.fst, IsEntryName name
  noLinks : ∀ location target, e.below? location ≠ some (.link target)

/-- What is below a tree is a tree. -/
theorem IsTree.below (h : e.IsTree) (hbelow : e.below? location = some e') : e'.IsTree := by
  have hlater (later : Location) : e.below? (location ++ later) = e'.below? later := by
    rw [below?_append, hbelow, Option.bind_some]
  constructor
  · intro later entries hentries
    exact h.nodup (location ++ later) entries ((hlater later).trans hentries)
  · intro later entries hentries
    exact h.names (location ++ later) entries ((hlater later).trans hentries)
  · intro later target htarget
    exact h.noLinks (location ++ later) target ((hlater later).trans htarget)

/-- An entry of a directory is found under its name. -/
theorem IsTree.lookup_eq_some_iff (h : (directory entries).IsTree) :
    entries.lookup name = some e ↔ (name, e) ∈ entries :=
  lookup_eq_some_iff_mem (h.nodup [] entries rfl)

/-- The entries of a tree are trees. -/
theorem IsTree.of_mem (h : (directory entries).IsTree) (hmem : (name, e) ∈ entries) :
    e.IsTree := by
  have hbelow : (directory entries).below? [name] = some e := by
    rw [below?_singleton, h.lookup_eq_some_iff.mpr hmem]
  exact h.below hbelow

/-- A file is a tree. -/
theorem isTree_file (contents : List UInt8) : (file contents).IsTree := by
  constructor
  all_goals
    rintro (_ | ⟨name, location⟩)
    all_goals exact nofun

/-- A directory is a tree if its entries are, and have names that are told apart. -/
theorem isTree_directory (hnodup : (entries.map Prod.fst).Nodup)
    (hnames : ∀ name ∈ entries.map Prod.fst, IsEntryName name)
    (htrees : ∀ item ∈ entries, item.2.IsTree) : (directory entries).IsTree := by
  have hchild {name : FileName} {location : Location} {below : Entry}
      (h : (directory entries).below? (name :: location) = some below) :
      ∃ child : Entry, child.IsTree ∧ child.below? location = some below := by
    obtain ⟨_, child, ⟨⟩, hchild, h⟩ := below?_cons_eq_some_iff.mp h
    exact ⟨child, htrees _ (mem_of_lookup hchild), h⟩
  constructor
  · rintro (_ | ⟨name, location⟩) below h
    · cases h
      exact hnodup
    · obtain ⟨child, htree, h⟩ := hchild h
      exact htree.nodup location below h
  · rintro (_ | ⟨name, location⟩) below h
    · cases h
      exact hnames
    · obtain ⟨child, htree, h⟩ := hchild h
      exact htree.names location below h
  · rintro (_ | ⟨name, location⟩) target h
    · cases h
    · obtain ⟨child, htree, h⟩ := hchild h
      exact htree.noLinks location target h

/-- The names that lead down a tree are those of entries. -/
theorem IsTree.isEntryName (h : e.IsTree) (hbelow : e.below? location = some e') :
    ∀ name ∈ location, IsEntryName name := by
  induction location generalizing e with
  | nil => exact nofun
  | cons name location ih =>
    obtain ⟨entries, child, rfl, hchild, hbelow⟩ := below?_cons_eq_some_iff.mp hbelow
    have hmem := mem_of_lookup hchild
    refine List.forall_mem_cons.mpr
      ⟨h.names [] entries rfl name (List.mem_map_of_mem hmem), ?_⟩
    exact ih (h.of_mem hmem) hbelow

/-! ### Files -/

mutual
/-- The locations of the files below an entry, in the order in which directories
enumerate them. -/
def files : Entry → List Location
  | .file _ => [[]]
  | .directory entries => filesIn entries
  | .link _ => []

/-- The locations of the files in a directory and below it. -/
def filesIn : List (FileName × Entry) → List Location
  | [] => []
  | (name, entry) :: entries => entry.files.map (name :: ·) ++ filesIn entries
end

/-- The files in a directory are those of its entries. -/
theorem files_directory (entries : List (FileName × Entry)) :
    (directory entries).files = entries.flatMap fun item =>
      item.2.files.map (item.1 :: ·) := by
  rw [files]
  induction entries with
  | nil => rfl
  | cons item entries ih => rw [filesIn, List.flatMap_cons, ih]

/-- The locations that are collected of a tree are those of its files. -/
theorem mem_files_iff (h : e.IsTree) :
    location ∈ e.files ↔ ∃ contents, e.below? location = some (.file contents) := by
  induction location generalizing e with
  | nil =>
    cases e with
    | file contents => simp [files]
    | directory entries => simp [files_directory]
    | link target => simp [files]
  | cons name location ih =>
    cases e with
    | directory entries =>
      simp only [files_directory, List.mem_flatMap, List.mem_map, List.cons.injEq, below?_cons,
        Option.bind_eq_some_iff]
      constructor
      · rintro ⟨⟨name', child⟩, hmem, below, hbelow, rfl, rfl⟩
        obtain ⟨contents, hcontents⟩ := (ih (h.of_mem hmem)).mp hbelow
        exact ⟨contents, child, h.lookup_eq_some_iff.mpr hmem, hcontents⟩
      · rintro ⟨contents, child, hchild, hcontents⟩
        have hmem := h.lookup_eq_some_iff.mp hchild
        exact ⟨(name, child), hmem, location, (ih (h.of_mem hmem)).mpr ⟨contents, hcontents⟩,
          rfl, rfl⟩
    | file contents => simp [files, below?]
    | link target => simp [files, below?]

/-- Each file of a tree is collected once. -/
theorem nodup_files (h : e.IsTree) : e.files.Nodup := by
  induction e using rec_entries with
  | file contents => simp [files]
  | link target => simp [files]
  | directory entries ih =>
    rw [files_directory, List.nodup_flatMap]
    constructor
    · intro item hitem
      exact (ih item hitem (h.of_mem hitem)).map (List.cons_injective)
    · -- Locations in different entries begin with different names.
      refine (List.pairwise_map.mp (h.nodup [] entries rfl)).imp
        fun hne location hlocation hlocation' => ?_
      obtain ⟨below, -, rfl⟩ := List.mem_map.mp hlocation
      obtain ⟨below', -, heq⟩ := List.mem_map.mp hlocation'
      exact hne (List.cons.inj heq).1.symm

/-! ### The order of directories -/

/-- Whether two entries look the same, what is below them and the order of a
directory aside. -/
inductive Looks : Entry → Entry → Prop
  | file (contents : List UInt8) : Looks (.file contents) (.file contents)
  | link (target : Path) : Looks (.link target) (.link target)
  | directory {entries entries' : List (FileName × Entry)} :
      (entries.map Prod.fst).Perm (entries'.map Prod.fst) →
        Looks (.directory entries) (.directory entries')

/-- Whether two entries have the same below them, but for the order in which directories
enumerate it. -/
def Reordered (e e' : Entry) : Prop :=
  ∀ location, Option.Rel Looks (e.below? location) (e'.below? location)

theorem Looks.symm (h : e.Looks e') : e'.Looks e := by
  cases h with
  | file contents => exact .file contents
  | link target => exact .link target
  | directory hperm => exact .directory hperm.symm

theorem Reordered.symm (h : e.Reordered e') : e'.Reordered e := by
  intro location
  have hlocation := h location
  generalize e.below? location = below at hlocation
  generalize e'.below? location = below' at hlocation
  cases hlocation with
  | some hlooks => exact .some hlooks.symm
  | none => exact .none

/-- Reordered entries look the same. -/
theorem Reordered.looks (h : e.Reordered e') : e.Looks e' := by
  have hnil := h []
  rw [below?_nil, below?_nil] at hnil
  cases hnil with
  | some hlooks => exact hlooks

/-- What is below reordered entries at one location is reordered. -/
theorem Reordered.below {child : Entry} (h : e.Reordered e')
    (hbelow : e.below? location = some child) :
    ∃ child', e'.below? location = some child' ∧ child.Reordered child' := by
  cases hbelow' : e'.below? location with
  | none =>
    have hlocation := h location
    rw [hbelow, hbelow'] at hlocation
    cases hlocation
  | some child' =>
    refine ⟨child', rfl, fun later => ?_⟩
    have hlater := h (location ++ later)
    rwa [below?_append, below?_append, hbelow, hbelow', Option.bind_some,
      Option.bind_some] at hlater

/-- Reordered entries have the same files at the same locations. -/
theorem Reordered.file (h : e.Reordered e') {contents : List UInt8}
    (hfile : e.below? location = some (.file contents)) :
    e'.below? location = some (.file contents) := by
  obtain ⟨child', hchild', hsame⟩ := h.below hfile
  cases hsame.looks
  exact hchild'

/-- What is a tree is one in any order of its directories. -/
theorem Reordered.isTree (h : e.Reordered e') (htree : e.IsTree) : e'.IsTree := by
  have hdirectory {location : Location} {entries' : List (FileName × Entry)}
      (hentries' : e'.below? location = some (.directory entries')) :
      ∃ entries, e.below? location = some (.directory entries) ∧
        (entries.map Prod.fst).Perm (entries'.map Prod.fst) := by
    obtain ⟨child, hchild, hsame⟩ := h.symm.below hentries'
    cases hsame.looks with
    | directory hperm => exact ⟨_, hchild, hperm.symm⟩
  constructor
  · intro location entries' hentries'
    obtain ⟨entries, hentries, hperm⟩ := hdirectory hentries'
    exact hperm.nodup (htree.nodup location entries hentries)
  · intro location entries' hentries' name hname
    obtain ⟨entries, hentries, hperm⟩ := hdirectory hentries'
    exact htree.names location entries hentries name (hperm.mem_iff.mpr hname)
  · intro location target htarget
    obtain ⟨child, hchild, hsame⟩ := h.symm.below htarget
    cases hsame.looks
    exact htree.noLinks location target hchild

end Entry

/-! ### Where a path leads -/

/-- A path is gone through in the same way if directories are reordered. -/
theorem walkPieces_of_reordered {root root' : Entry} (h : root.Reordered root')
    (ending : Ending) (jump : Location → Path → List FileName → Except FileFault Place) :
    walkPieces root ending jump = walkPieces root' ending jump := by
  funext here pieces
  induction pieces generalizing here with
  | nil => rfl
  | cons piece rest ih =>
    rw [walkPieces, walkPieces]
    have hhere := h here
    cases hentry : root.below? here with
    | none =>
      rw [hentry] at hhere
      cases hentry' : root'.below? here with
      | none => rfl
      | some entry' =>
        rw [hentry'] at hhere
        cases hhere
    | some entry =>
      obtain ⟨entry', hentry', hsame⟩ := h.below hentry
      rw [hentry']
      cases hsame.looks with
      | file contents => rfl
      | link target => rfl
      | directory hperm =>
        have hpiece := hsame [piece]
        rw [Entry.below?_singleton, Entry.below?_singleton] at hpiece
        simp only [ih]
        -- What is left to compare is the entry under the piece, of which only the
        -- looks matter.
        generalize List.lookup piece _ = found at hpiece
        generalize List.lookup piece _ = found' at hpiece
        cases hpiece with
        | none => rfl
        | some hlooks => cases hlooks <;> rfl

/-- The same with the links on the way. -/
theorem walkLinks_of_reordered {root root' : Entry} (h : root.Reordered root')
    (ending : Ending) (links : Nat) :
    walkLinks root ending links = walkLinks root' ending links := by
  induction links with
  | zero => rw [walkLinks, walkLinks, walkPieces_of_reordered h]
  | succ links ih => rw [walkLinks, walkLinks, walkPieces_of_reordered h, ih]

/-- Where a path leads does not depend on the order of directories. -/
theorem Disk.find_of_reordered {disk disk' : Disk} (h : disk.root.Reordered disk'.root)
    (here : disk.here = disk'.here) (path : Path) : disk.find path = disk'.find path := by
  rw [find, find, place, place, walkLinks_of_reordered h, here]

end ApiSurface
