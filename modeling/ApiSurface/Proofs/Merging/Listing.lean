import ApiSurface.Proofs.Merging.Partition
import Mathlib.Data.List.Sort

/-!
# The order of merged graphs

Merged graphs are sorted by five parts of theirs: the module, whether they are of a module
itself, the extending module, the bystanders and the path of the base. The first four are
parts of the role, and tell any two roles apart. A role has one merged graph, so the four
parts already put the graphs into an order without ties, and the path is never looked at:
whatever the paths are compared by, and wherever a graph stood before, sorting gives the one
list that is strictly increasing by the four parts.

## Main definitions

* `MergedGraph.byRole`, `MergedGraph.bySortKey`: the order by four parts and by five.
* `StrictlyListed`: a list in the strict order of the four parts.

## Main results

* `InListing.strictlyListed`: merged graphs as they are listed are such a list.
* `consolidate_strictlyListed`: sorting what the groups are merged to by all five parts
  gives such a list.
-/

namespace ApiSurface

open Std

namespace MergedGraph

/-- Compares merged graphs by their roles: by module, those of the module itself first, and
what is missing before what is given. -/
def byRole : MergedGraph → MergedGraph → Ordering :=
  compareLex (compareOn moduleName) (compareLex (compareOn fun m => !m.isMain)
    (compareLex (compareOn fun m => m.role.extending?) (compareOn fun m =>
      m.role.bystanders?)))

/-- Compares merged graphs by their roles, and if these are equal by the paths of
their bases. -/
def bySortKey : MergedGraph → MergedGraph → Ordering := compareLex byRole (compareOn basePath)

variable {m m' : MergedGraph}

/-- Merged graphs are compared as their roles are listed. -/
theorem byRole_eq (m m' : MergedGraph) :
    m.byRole m' = compare (Role.Listing.mk m.role) (Role.Listing.mk m'.role) := rfl

instance : TransCmp byRole :=
  inferInstanceAs (TransCmp (compareLex (compareOn moduleName)
    (compareLex (compareOn fun m => !m.isMain)
    (compareLex (compareOn fun m => m.role.extending?) (compareOn fun m =>
      m.role.bystanders?)))))

instance : TransCmp bySortKey :=
  inferInstanceAs (TransCmp (compareLex byRole (compareOn basePath)))

/-- Merged graphs agree in the four parts of their roles only if the roles are equal. -/
theorem byRole_eq_eq_iff : m.byRole m' = .eq ↔ m.role = m'.role := by
  rw [byRole_eq, Std.compare_eq_iff_eq, Role.Listing.mk.injEq]

/-- The four parts of a role in one equation. -/
theorem byRole_eq_eq_iff_parts :
    m.byRole m' = .eq ↔ m.moduleName = m'.moduleName ∧ m.isMain = m'.isMain ∧
    m.role.extending? = m'.role.extending? ∧ m.role.bystanders? = m'.role.bystanders? := by
  simp only [byRole, compareLex, compareOn, Ordering.then_eq_eq, Std.compare_eq_iff_eq,
    Bool.not_inj_iff]

/-- The graph of a module itself comes before one of what others add to the module. -/
theorem byRole_lt_of_isMain (hmodule : m.moduleName = m'.moduleName) (hmain : m.isMain = true)
    (hmain' : m'.isMain = false) : m.byRole m' = .lt := by
  simp only [byRole, compareLex, compareOn, hmodule, ReflCmp.compare_self, Ordering.eq_then,
    hmain, hmain']
  rfl

/-- The graph of a module alone comes before one of the module together with others. -/
theorem byRole_lt_of_bystanders {module : String} {bystanders : List String}
    (hrole : m.role = .main module) (hrole' : m'.role = .bystander module bystanders) :
    m.byRole m' = .lt := by
  simp only [byRole, compareLex, compareOn, moduleName, isMain, hrole, hrole', Role.moduleName,
    Role.isMain, Role.extending?, Role.bystanders?, ReflCmp.compare_self, Ordering.eq_then]
  rfl

end MergedGraph

/-- Whether some merged graphs are in the strict order of their roles, so that nothing else
can decide between two of them. -/
structure StrictlyListed (merged : List MergedGraph) : Prop where
  increasing : merged.Pairwise fun m m' => m.byRole m' = .lt
  /-- No two of them agree in all four parts of their roles. -/
  distinct : ∀ {i j : Nat} {m m' : MergedGraph}, merged[i]? = some m → merged[j]? = some m' →
    m.moduleName = m'.moduleName → m.isMain = m'.isMain →
    m.role.extending? = m'.role.extending? → m.role.bystanders? = m'.role.bystanders? → i = j
  /-- Sorting them gives this list, whatever the paths are compared by if the roles
  do not decide. -/
  sorted : ∀ (tie : Path → Path → Ordering) (l : List MergedGraph), l.Perm merged →
    l.Pairwise (fun m m' => ((m.byRole m').then (tie m.basePath m'.basePath)).isLE = true) →
    l = merged
  /-- The graphs of a module itself come before those of what others add to it. -/
  main_first : ∀ {i j : Nat} {m m' : MergedGraph}, merged[i]? = some m → merged[j]? = some m' →
    m.moduleName = m'.moduleName → m.isMain = true → m'.isMain = false → i < j
  /-- The graph of a module alone comes before those of the module together with others. -/
  alone_first :
    ∀ {i j : Nat} {m m' : MergedGraph} {module : String} {bystanders : List String},
      merged[i]? = some m → merged[j]? = some m' → m.role = .main module →
    m'.role = .bystander module bystanders → i < j

/-! ### Lists in order -/

section InListing

variable {merged : List MergedGraph} {i j : Nat} {m m' : MergedGraph}

/-- Graphs in the order of listing compare by their roles as their positions do. -/
theorem InListing.byRole_eq_compare (h : InListing merged) (hm : merged[i]? = some m)
    (hm' : merged[j]? = some m') : m.byRole m' = compare i j := by
  obtain ⟨hi, rfl⟩ := List.getElem?_eq_some_iff.mp hm
  obtain ⟨hj, rfl⟩ := List.getElem?_eq_some_iff.mp hm'
  obtain hij | rfl | hji := Nat.lt_trichotomy i j
  · rw [Nat.compare_eq_lt.mpr hij, MergedGraph.byRole_eq]
    exact List.pairwise_iff_getElem.mp h i j hi hj hij
  · rw [Nat.compare_eq_eq.mpr rfl]
    exact MergedGraph.byRole_eq_eq_iff.mpr rfl
  · rw [Nat.compare_eq_gt.mpr hji]
    refine OrientedCmp.gt_of_lt ?_
    rw [MergedGraph.byRole_eq]
    exact List.pairwise_iff_getElem.mp h j i hj hi hji

/-- Graphs in the order of listing stand where their roles put them. -/
theorem InListing.lt_of_byRole (h : InListing merged) (hm : merged[i]? = some m)
    (hm' : merged[j]? = some m') (hlt : m.byRole m' = .lt) : i < j :=
  Nat.compare_eq_lt.mp ((h.byRole_eq_compare hm hm').symm.trans hlt)

/-- Graphs with roles of their own that are sorted by role and then in some other way are
strictly sorted by role. -/
theorem InListing.of_perm (h : InListing merged) {l : List MergedGraph} (perm : l.Perm merged)
    {tie : Path → Path → Ordering}
    (hl : l.Pairwise fun m m' => ((m.byRole m').then (tie m.basePath m'.basePath)).isLE =
      true) : InListing l := by
  have hne : merged.Pairwise fun m m' => m.byRole m' ≠ .eq := by
    refine h.imp fun hlt heq => ?_
    rw [← MergedGraph.byRole_eq, heq] at hlt
    cases hlt
  have hne' : l.Pairwise fun m m' => m.byRole m' ≠ .eq :=
    hne.perm perm.symm fun hne heq => hne (OrientedCmp.eq_symm heq)
  refine hl.imp₂ (fun m m' hle hne => ?_) hne'
  rw [← MergedGraph.byRole_eq]
  cases hcompare : m.byRole m' with
  | lt => rfl
  | eq => exact absurd hcompare hne
  | gt =>
    rw [hcompare] at hle
    cases hle

/-- Two lists of the same graphs, both in the order of listing, are the same list. -/
theorem InListing.unique {l : List MergedGraph} (hl : InListing l) (h : InListing merged)
    (perm : l.Perm merged) : l = merged := by
  refine List.Perm.eq_of_pairwise (fun m m' _ _ hlt hgt => ?_) hl h perm
  rw [OrientedCmp.gt_of_lt hlt] at hgt
  cases hgt

/-- Graphs in the order of listing are in the strict order of their roles. -/
theorem InListing.strictlyListed (h : InListing merged) : StrictlyListed merged where
  increasing := h
  distinct hm hm' hmodule hmain hextending hbystanders :=
    Nat.compare_eq_eq.mp ((h.byRole_eq_compare hm hm').symm.trans
      (MergedGraph.byRole_eq_eq_iff_parts.mpr ⟨hmodule, hmain, hextending, hbystanders⟩))
  sorted _ _ perm hl := (h.of_perm perm hl).unique h perm
  main_first hm hm' hmodule hmain hmain' :=
    h.lt_of_byRole hm hm' (MergedGraph.byRole_lt_of_isMain hmodule hmain hmain')
  alone_first hm hm' hrole hrole' :=
    h.lt_of_byRole hm hm' (MergedGraph.byRole_lt_of_bystanders hrole hrole')

end InListing

/-! ### Consolidated graphs -/

/-- Sorting by a comparison that is an order gives a sorted list. -/
theorem pairwise_mergeSort_isLE {α : Type} (cmp : α → α → Ordering) [TransCmp cmp]
    (l : List α) :
    (l.mergeSort fun a b => (cmp a b).isLE).Pairwise fun a b => (cmp a b).isLE = true := by
  refine List.pairwise_mergeSort (fun a b c => TransCmp.isLE_trans) (fun a b => ?_) l
  rw [show cmp b a = (cmp a b).swap from OrientedCmp.eq_swap]
  cases cmp a b <;> rfl

variable {graphs : List UniqueGraph} {assumptions : Assumptions} {merged : List MergedGraph}
  {tally : Tally}

/-- **The order of merged graphs.** What the groups are merged to, in the order of the
roles, is sorted by all five parts, and that gives a list in the strict order of the four
parts of the roles. -/
theorem consolidate_strictlyListed
    (h : (consolidate graphs assumptions).result = .ok (merged, tally)) :
    StrictlyListed merged ∧
      ∃ all, mergeAll (groupByRole graphs) assumptions = .ok all ∧
        ((all.map Prod.fst).mergeSort fun m m' => (m.bySortKey m').isLE) = merged := by
  obtain ⟨-, all, hall, rfl, -⟩ := consolidate_eq_ok_iff.mp h
  have hlisted := (inListing_listed (all.map Prod.fst)).strictlyListed
  refine ⟨hlisted, all, Except.mapM_eq_ok_iff.mpr hall, hlisted.sorted compare _ ?_ ?_⟩
  · exact (List.mergeSort_perm _ _).trans (merged_perm hall).symm
  · exact pairwise_mergeSort_isLE MergedGraph.bySortKey _

/-- Graphs of what another module adds to a module, of the module together with another one,
and of the module alone. -/
def graphsOfThreeRoles : List UniqueGraph :=
  [{ bareGraph "a/X@M.symbols.json" none with name := .extension "X" "M" },
    { bareGraph "b/M@B.symbols.json" none with module := ⟨"M", .unknown, some ["B"], false⟩ },
    bareGraph "c/M.symbols.json" none]

/-- Three graphs whose paths are in the opposite order of their roles. -/
theorem consolidate_strictlyListed_threeRoles : ∃ merged tally,
    (consolidate graphsOfThreeRoles .empty).result = .ok (merged, tally) ∧
    merged.map MergedGraph.role = [.main "M", .bystander "M" ["B"], .extension "X" "M"] ∧
    StrictlyListed merged := by
  have hok :
      ((consolidate graphsOfThreeRoles .empty).result.map fun r =>
        r.1.map MergedGraph.role).toOption =
      some [.main "M", .bystander "M" ["B"], .extension "X" "M"] := by
    decide +kernel
  cases h : (consolidate graphsOfThreeRoles .empty).result with
  | error fault =>
    rw [h] at hok
    cases hok
  | ok r =>
    rw [h] at hok
    exact ⟨r.1, r.2, rfl, Option.some.inj hok, (consolidate_strictlyListed h).1⟩

end ApiSurface
