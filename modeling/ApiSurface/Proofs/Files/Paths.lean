import ApiSurface.Files.Disk
import ApiSurface.Proofs.Naming.Names

/-!
# Paths of entries

The path of an entry below a directory is the path of the directory continued by the names
that lead to the entry. Its components are those of the directory and then these names,
however the path of the directory is spelled. So entries at different places have paths that
differ in their components, and comparing the paths tells them apart.

## Main definitions

* `IsEntryName`: the names that an entry of a directory can have.
* `Path.graft`: a path continued by several names.

## Main results

* `Path.components_graft`: the components of such a path.
* `Path.compare_eq_iff`: paths are told apart by their components.
-/

namespace ApiSurface

open Std

/-! ### Pieces -/

namespace Text

variable {α : Type} [DecidableEq α] {separator : α}

theorem allPieces_cons (a : α) (run : List α) : allPieces separator (a :: run) =
    if a = separator then [] :: allPieces separator run
    else (allPieces separator run).modifyHead (a :: ·) := by
  rw [allPieces, pieces]
  by_cases ha : a = separator <;> simp [ha, allPieces]

/-- A run without separators is its only piece. -/
theorem allPieces_of_notMem {run : List α} (h : separator ∉ run) :
    allPieces separator run = [run] := by
  refine allPieces_eq_iff.mpr ⟨List.cons_ne_nil _ _, List.intercalate_singleton, ?_⟩
  intro part hpart
  rw [List.mem_singleton.mp hpart]
  exact h

/-- The pieces around a separator are those before it and those after it. -/
theorem allPieces_append_cons (run later : List α) :
    allPieces separator (run ++ separator :: later) =
    allPieces separator run ++ allPieces separator later := by
  induction run with
  | nil => rw [List.nil_append, allPieces_cons, if_pos rfl]; rfl
  | cons a run ih =>
    rw [List.cons_append, allPieces_cons, allPieces_cons, ih]
    split
    · rfl
    · rw [allPieces, List.cons_append, List.modifyHead_cons, List.modifyHead_cons,
        List.cons_append]

end Text

/-! ### Names of entries -/

/-- Whether an entry of a directory can have a name. -/
structure IsEntryName (name : FileName) : Prop where
  ne_nil : name ≠ []
  ne_dot : name ≠ Path.dot
  ne_dots : name ≠ Path.dots
  noSlash : Path.slash ∉ name

instance (name : FileName) : Decidable (IsEntryName name) :=
  decidable_of_iff (name ≠ [] ∧ name ≠ Path.dot ∧ name ≠ Path.dots ∧ Path.slash ∉ name)
    ⟨fun ⟨hnil, hdot, hdots, hslash⟩ => ⟨hnil, hdot, hdots, hslash⟩,
      fun ⟨hnil, hdot, hdots, hslash⟩ => ⟨hnil, hdot, hdots, hslash⟩⟩

namespace Path

variable {p q : Path} {name : FileName} {below below' : Location}

theorem component?_nil : component? [] = none := rfl

/-- The name of an entry is a component. -/
theorem component?_of_isEntryName (h : IsEntryName name) :
    component? name = some (.name name) := by
  simp [component?, h.ne_nil, h.ne_dot, h.ne_dots]

/-- The name of an entry is a path that does not start from the root. -/
theorem not_isAbsolute_of_isEntryName (h : IsEntryName name) :
    (⟨name⟩ : Path).isAbsolute = false := by
  rw [isAbsolute]
  cases name with
  | nil => exact absurd rfl h.ne_nil
  | cons b bytes =>
    refine beq_eq_false_iff_ne.mpr fun hb => h.noSlash ?_
    rw [← Option.some.inj hb]
    exact List.mem_cons_self

/-- A path that starts like another one, and has one more piece that counts, has one
more component. -/
theorem components_eq_append (hstart : q.bytes.head? = p.bytes.head?)
    (hhead : q.pieces.head? = p.pieces.head?)
    (hrest : q.pieces.filterMap component? = p.pieces.filterMap component? ++ [.name name]) :
    q.components = p.components ++ [.name name] := by
  simp only [components, isAbsolute, hstart, hhead, hrest]
  by_cases habsolute : p.bytes.head? == some slash
  · simp [habsolute]
  · by_cases hdot : p.pieces.head? = some dot <;> simp [habsolute, hdot]

/-- A path continued by the name of an entry has the name for its last component. -/
theorem components_join (p : Path) (h : IsEntryName name) :
    (p.join ⟨name⟩).components = p.components ++ [.name name] := by
  have hname : Text.allPieces slash name = [name] := Text.allPieces_of_notMem h.noSlash
  rw [join, not_isAbsolute_of_isEntryName h, if_neg Bool.false_ne_true]
  by_cases hnil : p.bytes = []
  · obtain ⟨bytes⟩ := p
    cases hnil
    simp only [decide_true, Bool.true_or, if_true, List.nil_append]
    rw [components, not_isAbsolute_of_isEntryName h, pieces, hname]
    simp only [List.head?_cons, Option.some.injEq, h.ne_dot, Bool.false_eq_true, if_false,
      List.filterMap_cons, component?_of_isEntryName h, List.filterMap_nil]
    rfl
  · by_cases hslash : p.endsInSlash
    · obtain ⟨before, hbefore⟩ := List.getLast?_eq_some_iff.mp (beq_iff_eq.mp hslash)
      rw [if_pos (by simp [hslash])]
      have hp : p.pieces = Text.allPieces slash before ++ [[]] := by
        rw [pieces, hbefore, Text.allPieces_append_cons]
        rfl
      have hq : (⟨p.bytes ++ name⟩ : Path).pieces = Text.allPieces slash before ++ [name] := by
        rw [pieces, hbefore, List.append_assoc, List.singleton_append,
          Text.allPieces_append_cons, hname]
      refine components_eq_append (List.head?_append_of_ne_nil _ hnil) ?_ ?_
      · rw [hp, hq]
        rfl
      · rw [hp, hq, List.filterMap_append, List.filterMap_append]
        simp [component?_nil, component?_of_isEntryName h]
    · rw [if_neg (by simp [hslash, hnil])]
      have hq : (⟨p.bytes ++ slash :: name⟩ : Path).pieces = p.pieces ++ [name] := by
        rw [pieces, Text.allPieces_append_cons, hname]
        rfl
      refine components_eq_append (List.head?_append_of_ne_nil _ hnil) ?_ ?_
      · rw [hq]
        rfl
      · rw [hq, List.filterMap_append]
        simp [component?_of_isEntryName h]

/-! ### Entries below a directory -/

/-- A path continued by the names that lead from it to an entry. -/
def graft (p : Path) (below : Location) : Path := below.foldl (fun p name => p.join ⟨name⟩) p

@[simp] theorem graft_nil (p : Path) : p.graft [] = p := rfl

@[simp] theorem graft_cons (p : Path) (name : FileName) (below : Location) :
    p.graft (name :: below) = (p.join ⟨name⟩).graft below := rfl

/-- The components of such a path are those of the path and the names. -/
theorem components_graft (p : Path) (h : ∀ name ∈ below, IsEntryName name) :
    (p.graft below).components = p.components ++ below.map .name := by
  induction below generalizing p with
  | nil => simp
  | cons name below ih =>
    obtain ⟨hname, hbelow⟩ := List.forall_mem_cons.mp h
    rw [graft_cons, ih _ hbelow, components_join p hname, List.append_assoc, List.map_cons,
      List.singleton_append]

/-- Names that lead to paths with the same components are the same. -/
theorem eq_of_components_graft (h : ∀ name ∈ below, IsEntryName name)
    (h' : ∀ name ∈ below', IsEntryName name)
    (heq : (p.graft below).components = (p.graft below').components) : below = below' := by
  rw [components_graft p h, components_graft p h'] at heq
  exact List.map_injective_iff.mpr (fun _ _ => Component.name.inj)
    (List.append_cancel_left heq)

end Path

/-! ### Comparing -/

instance : LawfulEqOrd Component where
  compare_self := ReflCmp.compare_self
  eq_of_compare {a b} h := by
    obtain ⟨hkind, hbytes⟩ := Ordering.then_eq_eq.mp h
    rw [compareOn, Std.compare_eq_iff_eq] at hkind hbytes
    cases a <;> cases b <;> simp_all [Component.kind, Component.bytes]

/-- Paths are told apart by their components. -/
theorem Path.compare_eq_iff {p q : Path} :
    compare p q = .eq ↔ p.components = q.components := by
  rw [show compare p q = compare p.components q.components from rfl, Std.compare_eq_iff_eq]

/-- What is in a directory comes before a name that goes on after that of the directory,
whatever it goes on with. -/
example : compare (Path.ofText "a/b") (Path.ofText "a.c") = .lt := by decide +kernel

end ApiSurface
