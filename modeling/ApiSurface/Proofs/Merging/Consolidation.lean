import ApiSurface.Proofs.Merging.Groups
import ApiSurface.Proofs.Merging.Merge

/-!
# Consolidation

Consolidation merges the group of each role by itself. It fails if a path is given twice or if
a group cannot be merged, and nothing of it depends on the order in which the graphs are given.

## Main results

* `firstRepeated_eq_none_iff`: when no path is given twice.
* `inListing_listed`, `listed_perm`: the order of merged graphs.
* `consolidate_eq_ok_iff`: when graphs are consolidated, and what comes out.
* `exists_group_of_mem`: each merged graph is that of a group.
* `consolidate_perm`, `consolidate_ok_perm`: the order of the graphs does not matter.
-/

namespace ApiSurface

open Std

/-! ### Repeated paths -/

/-- Whether a set of paths has one with given components. -/
theorem contains_insert (seen : Table Path Unit) (p q : Path) :
    (seen.insert p ()).contains q = (compare q p == .eq || seen.contains q) := by
  rw [Table.contains, Table.contains, Table.get?_insert]
  split
  · next heq => rw [heq]; rfl
  · next hne => rw [beq_false_of_ne hne, Bool.false_or]

/-- No path is repeated if paths differ, from each other and from those before. -/
theorem firstRepeated_eq_none_iff {seen : Table Path Unit} {paths : List Path} :
    firstRepeated seen paths = none ↔ (∀ p ∈ paths, seen.contains p = false) ∧
      PathsDiffer paths := by
  induction paths generalizing seen with
  | nil => simp [firstRepeated, PathsDiffer]
  | cons path paths ih =>
    rw [firstRepeated, PathsDiffer, List.pairwise_cons, List.forall_mem_cons]
    by_cases hseen : seen.contains path = true
    · simp [hseen]
    · rw [Bool.not_eq_true] at hseen
      rw [if_neg (by rw [hseen]; decide), ih]
      simp only [contains_insert, Bool.or_eq_false_iff, beq_eq_false_iff_ne]
      constructor
      · rintro ⟨hfresh, hdiffer⟩
        refine ⟨⟨hseen, fun p hp => (hfresh p hp).2⟩, fun p hp heq => ?_, hdiffer⟩
        exact (hfresh p hp).1 (OrientedCmp.eq_symm heq)
      · rintro ⟨⟨-, hfresh⟩, hother, hdiffer⟩
        refine ⟨fun p hp => ⟨fun heq => ?_, hfresh p hp⟩, hdiffer⟩
        exact hother p hp (OrientedCmp.eq_symm heq)

/-! ### Listing -/

instance : LawfulEqOrd Role.Listing where
  eq_of_compare {l l'} h := by
    have hparts : compareLex (compareOn Role.Listing.moduleName)
        (compareLex (compareOn Role.Listing.isLate)
          (compareLex (compareOn Role.Listing.extending?)
          (compareOn Role.Listing.bystanders?))) l l' = .eq := h
    simp only [compareLex, compareOn, Ordering.then_eq_eq, Std.compare_eq_iff_eq] at hparts
    obtain ⟨hmodule, hlate, hextending, hbystanders⟩ := hparts
    obtain ⟨r⟩ := l
    obtain ⟨r'⟩ := l'
    cases r <;> cases r' <;>
      simp_all [Role.Listing.moduleName, Role.Listing.isLate, Role.Listing.extending?,
        Role.Listing.bystanders?, Role.moduleName, Role.isMain, Role.extending?,
        Role.bystanders?]

/-- Listing graphs of distinct roles only changes their order. -/
theorem listed_perm {merged : List MergedGraph}
    (distinct : (merged.map MergedGraph.role).Nodup) : (listed merged).Perm merged := by
  have hroles : merged.Pairwise fun m m' => m.role ≠ m'.role := List.pairwise_map.mp distinct
  have hkeys :
      (merged.map fun m => (Role.Listing.mk m.role, m)).Pairwise fun a b => a.1 ≠ b.1 := by
    refine List.pairwise_map.mpr (hroles.imp fun hne heq => hne ?_)
    exact congrArg Role.Listing.role heq
  have hperm := (Table.ofList_entries_perm hkeys).map Prod.snd
  have hsecond :
      Prod.snd ∘ (fun m : MergedGraph => (Role.Listing.mk m.role, m)) = id := rfl
  rwa [List.map_map, hsecond, List.map_id] at hperm

/-- Whether merged graphs are in the order of listing, each in a place of its own. -/
def InListing (merged : List MergedGraph) : Prop :=
  merged.Pairwise fun m m' => compare (Role.Listing.mk m.role) (Role.Listing.mk m'.role) = .lt

/-- Listing puts graphs in order. -/
theorem inListing_listed (merged : List MergedGraph) : InListing (listed merged) := by
  refine List.pairwise_map.mpr ((Table.increasing _).imp_of_mem ?_)
  intro entry entry' hentry hentry' hlt
  obtain ⟨m, -, rfl⟩ := List.mem_map.mp (Table.mem_of_mem_ofList hentry)
  obtain ⟨m', -, rfl⟩ := List.mem_map.mp (Table.mem_of_mem_ofList hentry')
  exact hlt

/-! ### All groups -/

/-- Merging all groups. -/
def mergeAll (groups : Table Role Group) (assumptions : Assumptions) :
    Except MergeFault (List (MergedGraph × Tally)) :=
  groups.entries.mapM fun entry => (entry.2.merge entry.1 assumptions).result

/-- Consolidation looks for repeated paths, and merges all groups if there are none. -/
theorem consolidate_result (graphs : List UniqueGraph) (assumptions : Assumptions) :
    (consolidate graphs assumptions).result =
      match firstRepeated .empty (graphs.map UniqueGraph.path) with
      | some path => .error (.suppliedTwice path)
      | none => (mergeAll (groupByRole graphs) assumptions).map fun merged =>
        (listed (merged.map Prod.fst), (merged.map Prod.snd).foldl Tally.add .zero) := by
  rw [consolidate]
  cases firstRepeated .empty (graphs.map UniqueGraph.path) with
  | some path => rfl
  | none =>
    simp only [Traced.result_bind, Traced.result_pure, Traced.result_note,
      Traced.result_forEach, Except.ok_bind, mergeAll]
    rfl

/-- No path is repeated among those of some graphs if they differ. -/
theorem firstRepeated_paths_iff {paths : List Path} :
    firstRepeated .empty paths = none ↔ PathsDiffer paths := by
  rw [firstRepeated_eq_none_iff]
  exact and_iff_right fun _ _ => rfl

variable {graphs graphs' : List UniqueGraph} {assumptions : Assumptions}
  {merged : List MergedGraph} {tally : Tally}

/-- Graphs are consolidated if their paths differ and all groups can be merged. -/
theorem consolidate_eq_ok_iff :
    (consolidate graphs assumptions).result = .ok (merged, tally) ↔
      PathsDiffer (graphs.map UniqueGraph.path) ∧
        ∃ all, List.Forall₂ (fun entry m => (entry.2.merge entry.1 assumptions).result = .ok m)
            (groupByRole graphs).entries all ∧
          listed (all.map Prod.fst) = merged ∧
          (all.map Prod.snd).foldl Tally.add .zero = tally := by
  rw [consolidate_result, ← firstRepeated_paths_iff]
  cases firstRepeated .empty (graphs.map UniqueGraph.path) with
  | some path => simp
  | none => simp [mergeAll, Except.mapM_eq_ok_iff, Except.map_eq_ok_iff]

/-- Consolidation succeeds exactly if paths differ and each group can be merged. -/
theorem exists_consolidate_eq_ok_iff :
    (∃ r, (consolidate graphs assumptions).result = .ok r) ↔
      PathsDiffer (graphs.map UniqueGraph.path) ∧
        ∀ entry ∈ (groupByRole graphs).entries, ∃ m,
          (entry.2.merge entry.1 assumptions).result = .ok m := by
  rw [← Except.exists_mapM_eq_ok_iff]
  simp only [Prod.exists, consolidate_eq_ok_iff, Except.mapM_eq_ok_iff]
  constructor
  · rintro ⟨_, _, hdiffer, all, hall, -⟩
    exact ⟨hdiffer, all, hall⟩
  · rintro ⟨hdiffer, all, hall⟩
    exact ⟨_, _, hdiffer, all, hall, rfl, rfl⟩

/-! ### Merged graphs and their groups -/

/-- A merged graph has the role of its group. -/
theorem role_of_merge {group : Group} {role : Role} {m : MergedGraph × Tally}
    (h : (group.merge role assumptions).result = .ok m) : m.1.role = role := by
  obtain ⟨-, hmerged⟩ := Group.merge_eq_ok h
  rw [hmerged]
  rfl

/-- The roles of the graphs that all groups are merged to are those of the groups. -/
theorem roles_of_mergeAll {groups : Table Role Group} {all : List (MergedGraph × Tally)}
    (h : List.Forall₂ (fun entry m => (entry.2.merge entry.1 assumptions).result = .ok m)
      groups.entries all) : all.map (fun m => m.1.role) = groups.keys := by
  exact Except.map_eq_of_forall₂ (fun _ _ hm => role_of_merge hm) h

/-- The merged graphs are those of the groups, in another order. -/
theorem merged_perm {all : List (MergedGraph × Tally)}
    (h : List.Forall₂ (fun entry m => (entry.2.merge entry.1 assumptions).result = .ok m)
      (groupByRole graphs).entries all) :
    (listed (all.map Prod.fst)).Perm (all.map Prod.fst) := by
  refine listed_perm ?_
  have hrole :
      MergedGraph.role ∘ Prod.fst = fun m : MergedGraph × Tally => m.1.role := rfl
  rw [List.map_map, hrole, roles_of_mergeAll h]
  exact (groupByRole graphs).nodup_keys

/-- Each merged graph is that of the group of its role. -/
theorem exists_group_of_mem (h : (consolidate graphs assumptions).result = .ok (merged, tally))
    {m : MergedGraph} (hm : m ∈ merged) :
    ∃ group t, (groupByRole graphs).get? m.role = some group ∧
      (group.merge m.role assumptions).result = .ok (m, t) := by
  obtain ⟨-, all, hall, rfl, -⟩ := consolidate_eq_ok_iff.mp h
  obtain ⟨⟨_, t⟩, hmt, rfl⟩ := List.mem_map.mp ((merged_perm hall).mem_iff.mp hm)
  obtain ⟨⟨role, group⟩, hentry, hmerge⟩ := Except.exists_of_forall₂ hall hmt
  obtain rfl := role_of_merge hmerge
  exact ⟨group, t, Table.mem_entries_iff.mp hentry, hmerge⟩

/-- For each graph there is a merged graph of its role. -/
theorem exists_merged_of_mem
    (h : (consolidate graphs assumptions).result = .ok (merged, tally)) {graph : UniqueGraph}
    (hgraph : graph ∈ graphs) : ∃ m ∈ merged, m.role = graph.role := by
  obtain ⟨-, all, hall, rfl, -⟩ := consolidate_eq_ok_iff.mp h
  have hrole : graph.role ∈ all.map fun m => m.1.role := by
    rw [roles_of_mergeAll hall]
    exact mem_keys_groupByRole_iff.mpr ⟨graph, hgraph, rfl⟩
  obtain ⟨m, hm, hrole⟩ := List.mem_map.mp hrole
  exact ⟨m.1, (merged_perm hall).mem_iff.mpr (List.mem_map_of_mem hm), hrole⟩

/-! ### Order of the graphs -/

/-- If paths differ, consolidation gives the same for every order of the graphs, also
if it fails. -/
theorem consolidate_perm (perm : graphs.Perm graphs')
    (differ : PathsDiffer (graphs.map UniqueGraph.path)) (assumptions : Assumptions) :
    (consolidate graphs assumptions).result = (consolidate graphs' assumptions).result := by
  rw [consolidate_result, consolidate_result, firstRepeated_paths_iff.mpr differ,
    firstRepeated_paths_iff.mpr (differ.perm (perm.map _)), groupByRole_perm perm differ]

/-- Consolidation succeeds for every order of the graphs or for none, and with the
same result. -/
theorem consolidate_ok_perm (perm : graphs.Perm graphs') {r : List MergedGraph × Tally} :
    (consolidate graphs assumptions).result = .ok r →
      (consolidate graphs' assumptions).result = .ok r := by
  intro h
  rw [← consolidate_perm perm (consolidate_eq_ok_iff.mp h).1, h]

end ApiSurface
