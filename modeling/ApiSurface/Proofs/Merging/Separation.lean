import ApiSurface.Proofs.Merging.MergedSymbols
import Mathlib.Data.List.Sort

/-!
# Separate modules

Graphs of different roles have nothing to do with each other. So if some graphs have neither
a path nor a role in common with others, both lots can be consolidated at once or one by
one: this succeeds or fails in the same cases, and gives the same merged graphs. All that is
shared is the order in which they are listed and the count of what has been done.

## Main results

* `groupByRole_append_entries_perm`: the groups of separate graphs.
* `IsInterleaving`: two lots of merged graphs, listed together.
* `consolidate_append`: consolidating separate graphs.
-/

namespace ApiSurface

open Std

/-! ### Counts -/

namespace Tally

instance : Std.Associative add where
  assoc s t u := by simp only [add, Nat.add_assoc]

instance : Std.Commutative add where
  comm s t := by simp only [add, Nat.add_comm]

/-- What has been done for some graphs and for others. -/
theorem foldl_append (ss ts : List Tally) :
    (ss ++ ts).foldl add zero = (ss.foldl add zero).add (ts.foldl add zero) := by
  rw [List.foldl_append]
  calc ts.foldl add (ss.foldl add zero)
      = ts.foldl add ((ss.foldl add zero).add zero) := rfl
    _ = (ss.foldl add zero).add (ts.foldl add zero) := List.foldl_assoc

end Tally

/-! ### Groups of separate graphs -/

/-- Whether no graph of one list has a path or a role in common with one of another list. -/
structure Separate (as bs : List UniqueGraph) : Prop where
  paths : ∀ a ∈ as, ∀ b ∈ bs, compare a.path b.path ≠ .eq
  roles : ∀ a ∈ as, ∀ b ∈ bs, a.role ≠ b.role

namespace Separate

variable {as bs : List UniqueGraph} (separate : Separate as bs)
include separate

/-- Paths of separate graphs differ if those of each list do. -/
theorem pathsDiffer_append_iff : PathsDiffer ((as ++ bs).map UniqueGraph.path) ↔
    PathsDiffer (as.map UniqueGraph.path) ∧ PathsDiffer (bs.map UniqueGraph.path) := by
  rw [PathsDiffer, List.map_append, List.pairwise_append]
  refine and_congr_right fun _ => and_iff_left fun path hpath path' hpath' => ?_
  obtain ⟨a, ha, rfl⟩ := List.mem_map.mp hpath
  obtain ⟨b, hb, rfl⟩ := List.mem_map.mp hpath'
  exact separate.paths a ha b hb

/-- The group of a role is the group among the graphs that have the role. -/
theorem get?_groupByRole_append (ha : PathsDiffer (as.map UniqueGraph.path))
    (hb : PathsDiffer (bs.map UniqueGraph.path)) (role : Role) :
    (groupByRole (as ++ bs)).get? role =
      ((groupByRole as).get? role).or ((groupByRole bs).get? role) := by
  have differ := separate.pathsDiffer_append_iff.mpr ⟨ha, hb⟩
  by_cases hrole : ∃ a ∈ as, a.role = role
  · obtain ⟨a, hmem, rfl⟩ := hrole
    have hnone : bs.filter (fun graph => graph.role = a.role) = [] :=
      List.filter_eq_nil_iff.mpr fun b hb => by simpa using (separate.roles a hmem b hb).symm
    have hleft : (groupByRole (as ++ bs)).get? a.role = (groupByRole as).get? a.role := by
      refine get?_groupByRole_congr ?_ differ ha
      rw [List.filter_append, hnone, List.append_nil]
    have hright : (groupByRole bs).get? a.role = none := by
      rw [Table.get?_eq_none_iff, mem_keys_groupByRole_iff]
      rintro ⟨b, hb, heq⟩
      exact separate.roles a hmem b hb heq.symm
    rw [hleft, hright, Option.or_none]
  · have hnone : as.filter (fun graph => graph.role = role) = [] :=
      List.filter_eq_nil_iff.mpr fun a ha => by simpa using fun heq => hrole ⟨a, ha, heq⟩
    have hleft : (groupByRole as).get? role = none := by
      rwa [Table.get?_eq_none_iff, mem_keys_groupByRole_iff]
    rw [hleft, Option.none_or]
    refine get?_groupByRole_congr ?_ differ hb
    rw [List.filter_append, hnone, List.nil_append]

/-- The groups of separate graphs are those of the one list and those of the other. -/
theorem groupByRole_append_entries_perm (ha : PathsDiffer (as.map UniqueGraph.path))
    (hb : PathsDiffer (bs.map UniqueGraph.path)) :
    (groupByRole (as ++ bs)).entries.Perm ((groupByRole as).entries ++
      (groupByRole bs).entries) := by
  have hapart (role : Role) : role ∈ (groupByRole as).keys → role ∉ (groupByRole bs).keys := by
    rw [mem_keys_groupByRole_iff, mem_keys_groupByRole_iff]
    rintro ⟨a, ha, rfl⟩ ⟨b, hb, heq⟩
    exact separate.roles a ha b hb heq.symm
  have hnodup : ((groupByRole as).entries ++ (groupByRole bs).entries).Nodup := by
    refine List.Nodup.append (Table.nodup_entries _) (Table.nodup_entries _)
      fun entry hentry hentry' => ?_
    exact hapart entry.1 (List.mem_map_of_mem hentry) (List.mem_map_of_mem hentry')
  refine (List.perm_ext_iff_of_nodup (Table.nodup_entries _) hnodup).mpr ?_
  rintro ⟨role, group⟩
  rw [List.mem_append, Table.mem_entries_iff, Table.mem_entries_iff, Table.mem_entries_iff,
    separate.get?_groupByRole_append ha hb, Option.or_eq_some_iff]
  refine or_congr_right (and_iff_right_of_imp fun hgroup =>
    Table.get?_eq_none_iff.mpr fun hrole => ?_)
  exact hapart role hrole (Table.mem_keys_iff.mpr ⟨group, hgroup⟩)

end Separate

/-! ### Consolidating separate graphs -/

/-- Whether a list has two lots of merged graphs and no others, each lot in its order, and
all of them in the order of listing. -/
structure IsInterleaving (ms ms' merged : List MergedGraph) : Prop where
  perm : merged.Perm (ms ++ ms')
  left : ms.Sublist merged
  right : ms'.Sublist merged
  inListing : InListing merged

/-- Part of a list in the order of listing, in that order, is contained in it as it stands. -/
theorem InListing.sublist {ms merged : List MergedGraph} (hms : InListing ms)
    (h : InListing merged) (hsub : ms.Subperm merged) : ms.Sublist merged := by
  have : Std.Antisymm fun m m' : MergedGraph =>
      compare (Role.Listing.mk m.role) (Role.Listing.mk m'.role) = .lt := by
    refine ⟨fun m m' hlt hgt => ?_⟩
    rw [OrientedCmp.gt_of_lt hlt] at hgt
    cases hgt
  exact List.sublist_of_subperm_of_pairwise hsub hms h

/-- Lots of merged graphs that are listed together are interleaved. -/
theorem isInterleaving_listed {ms ms' all : List MergedGraph} (hms : InListing ms)
    (hms' : InListing ms') (perm : (listed all).Perm (ms ++ ms')) :
    IsInterleaving ms ms' (listed all) := by
  constructor
  case perm => exact perm
  case left =>
    refine hms.sublist (inListing_listed all) ?_
    exact (List.sublist_append_left ms ms').subperm.trans perm.symm.subperm
  case right =>
    refine hms'.sublist (inListing_listed all) ?_
    exact (List.sublist_append_right ms ms').subperm.trans perm.symm.subperm
  case inListing => exact inListing_listed all

/-- **Separate modules.** Graphs that have neither a path nor a role in common with others
are consolidated together with them exactly if both lots can be consolidated by themselves.
The merged graphs are those of both lots, listed together, and what has been done is what
was done for both. -/
theorem consolidate_append {as bs : List UniqueGraph} (separate : Separate as bs)
    (assumptions : Assumptions) :
    ((∃ r, (consolidate (as ++ bs) assumptions).result = .ok r) ↔
      (∃ r, (consolidate as assumptions).result = .ok r) ∧
        ∃ r, (consolidate bs assumptions).result = .ok r) ∧
    ∀ ms t ms' t', (consolidate as assumptions).result = .ok (ms, t) →
      (consolidate bs assumptions).result = .ok (ms', t') →
      ∃ merged, (consolidate (as ++ bs) assumptions).result = .ok (merged, t.add t') ∧
        IsInterleaving ms ms' merged := by
  constructor
  · simp only [exists_consolidate_eq_ok_iff, separate.pathsDiffer_append_iff]
    constructor
    · rintro ⟨⟨ha, hb⟩, hmerge⟩
      have hperm := separate.groupByRole_append_entries_perm ha hb
      refine ⟨⟨ha, fun entry hentry => hmerge entry ?_⟩, hb,
        fun entry hentry => hmerge entry ?_⟩
      · exact hperm.mem_iff.mpr (List.mem_append_left _ hentry)
      · exact hperm.mem_iff.mpr (List.mem_append_right _ hentry)
    · rintro ⟨⟨ha, hmerge⟩, hb, hmerge'⟩
      refine ⟨⟨ha, hb⟩, fun entry hentry => ?_⟩
      have happended := (separate.groupByRole_append_entries_perm ha hb).mem_iff.mp hentry
      rcases List.mem_append.mp happended with hentry | hentry
      · exact hmerge entry hentry
      · exact hmerge' entry hentry
  · intro ms t ms' t' h h'
    obtain ⟨ha, all, hall, rfl, rfl⟩ := consolidate_eq_ok_iff.mp h
    obtain ⟨hb, all', hall', rfl, rfl⟩ := consolidate_eq_ok_iff.mp h'
    obtain ⟨both, hboth, hperm⟩ := List.perm_comp_forall₂
      (separate.groupByRole_append_entries_perm ha hb) (List.rel_append hall hall')
    have hdiffer := separate.pathsDiffer_append_iff.mpr ⟨ha, hb⟩
    refine ⟨_, consolidate_eq_ok_iff.mpr ⟨hdiffer, both, hboth, rfl, ?_⟩,
      isInterleaving_listed (inListing_listed _) (inListing_listed _) ?_⟩
    · rw [← Tally.foldl_append, ← List.map_append]
      exact (hperm.map Prod.snd).foldl_eq _
    · refine (merged_perm hboth).trans ((hperm.map Prod.fst).trans ?_)
      rw [List.map_append]
      exact (merged_perm hall).symm.append (merged_perm hall').symm

/-- A graph of another module, with a symbol of the same identifier. -/
def otherModuleGraph : UniqueGraph :=
  { graphAvailableFor "c/N.symbols.json" "macOS" with
    name := .main "N"
    module := ⟨"N", .unknown, none, false⟩ }

/-- Two graphs of one module and a graph of another one are consolidated as if the others
were not there. -/
theorem consolidate_append_otherModule : Separate graphsForTwoDomains [otherModuleGraph] ∧
    ∃ ms t ms' t' merged,
      (consolidate graphsForTwoDomains thirdDomainAssumed).result = .ok (ms, t) ∧
      (consolidate [otherModuleGraph] thirdDomainAssumed).result = .ok (ms', t') ∧
      (consolidate (graphsForTwoDomains ++ [otherModuleGraph]) thirdDomainAssumed).result =
        .ok (merged, t.add t') ∧
      IsInterleaving ms ms' merged := by
  have hseparate : Separate graphsForTwoDomains [otherModuleGraph] :=
    ⟨by decide +kernel, by decide +kernel⟩
  have hok : (consolidate graphsForTwoDomains thirdDomainAssumed).result.toBool = true := by
    decide +kernel
  have hok' : (consolidate [otherModuleGraph] thirdDomainAssumed).result.toBool = true := by
    decide +kernel
  obtain ⟨⟨ms, t⟩, h⟩ := Except.toBool_eq_true_iff.mp hok
  obtain ⟨⟨ms', t'⟩, h'⟩ := Except.toBool_eq_true_iff.mp hok'
  obtain ⟨merged, hmerged, hinterleaving⟩ :=
    (consolidate_append hseparate thirdDomainAssumed).2 ms t ms' t' h h'
  exact ⟨hseparate, ms, t, ms', t', merged, h, h', hmerged, hinterleaving⟩

end ApiSurface
