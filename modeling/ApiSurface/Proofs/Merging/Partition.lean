import ApiSurface.Proofs.Merging.Consolidation

/-!
# Merged graphs as a partition

The merged graphs divide the graphs they are made of: each graph goes into exactly one of
them, as its base or as an overlay, and two graphs go into the same one exactly if they have
the same role. The base is the graph that precedes the others, and what is not availability
comes from it alone.

## Main results

* `UniqueGraph.role_eq_iff_of_bystanders`, `UniqueGraph.single_iff_of_role_eq`: which
  graphs have one role.
* `IsPartition`, `consolidate_isPartition`: how merged graphs divide the
  graphs they are made of.
-/

namespace ApiSurface

/-! ### Graphs of one role -/

namespace UniqueGraph

variable {a b : UniqueGraph}

/-- The role of a graph whose module has bystanders. -/
theorem role_of_bystanders (h : a.module.hasBystanders = true) :
    a.role = .bystander a.module.name a.module.bystanderSet := by
  unfold role GraphName.role
  rw [if_pos h]

/-- The role of a graph whose module has no bystanders is not that of one which has. -/
theorem role_ne_bystander (h : a.module.hasBystanders = false) (module : String)
    (bystanders : List String) : a.role ≠ .bystander module bystanders := by
  unfold role GraphName.role
  rw [if_neg (by rw [h]; decide)]
  cases a.name <;> simp

/-- A graph whose module has bystanders has one role with the graphs of modules of the same
name with the same bystanders, whatever their order and however often they are named. -/
theorem role_eq_iff_of_bystanders (h : a.module.hasBystanders = true) :
    a.role = b.role ↔ b.module.hasBystanders = true ∧ b.module.name = a.module.name ∧
      ∀ name, name ∈ b.module.bystanders.getD [] ↔ name ∈ a.module.bystanders.getD [] := by
  rw [role_of_bystanders h]
  cases hb : b.module.hasBystanders with
  | false =>
    constructor
    · intro heq
      exact absurd heq.symm (role_ne_bystander hb _ _)
    · rintro ⟨hfalse, -⟩
      cases hfalse
  | true =>
    rw [role_of_bystanders hb, Role.bystander.injEq, Module.bystanderSet, Module.bystanderSet,
      distinct_eq_iff]
    constructor
    · rintro ⟨hname, hset⟩
      exact ⟨rfl, hname.symm, fun name => (hset name).symm⟩
    · rintro ⟨-, hname, hset⟩
      exact ⟨hname.symm, fun name => (hset name).symm⟩

/-- Of two graphs of one role whose modules have no bystanders, both or neither are named
for a single module. -/
theorem single_iff_of_role_eq (h : a.role = b.role) (ha : a.module.hasBystanders = false)
    (hb : b.module.hasBystanders = false) :
    (∃ module, a.name = .main module) ↔ ∃ module, b.name = .main module := by
  unfold role GraphName.role at h
  rw [if_neg (by rw [ha]; decide), if_neg (by rw [hb]; decide)] at h
  cases hna : a.name <;> cases hnb : b.name <;> simp [hna, hnb] at h ⊢

end UniqueGraph

/-! ### Partitions -/

/-- The paths of the graphs that a merged graph is made of. -/
def MergedGraph.paths (m : MergedGraph) : List Path := m.basePath :: m.overlayPaths

/-- Whether two graphs go into one merged graph. -/
def Together (merged : List MergedGraph) (a b : UniqueGraph) : Prop :=
  ∃ m ∈ merged, a.path ∈ m.paths ∧ b.path ∈ m.paths

/-- How merged graphs divide the graphs that they are made of. -/
structure IsPartition (graphs : List UniqueGraph) (merged : List MergedGraph) : Prop where
  /-- Each graph goes into one merged graph, and nothing else does. -/
  paths : (merged.flatMap MergedGraph.paths).Perm (graphs.map UniqueGraph.path)
  /-- No graph goes into two merged graphs, or into one of them twice. -/
  differ : PathsDiffer (merged.flatMap MergedGraph.paths)
  /-- Graphs of one role go into one merged graph, and no others. -/
  together_iff : ∀ a ∈ graphs, ∀ b ∈ graphs, Together merged a b ↔ a.role = b.role
  /-- A graph with bystanders goes together with those of the same module and bystanders. -/
  bystanders : ∀ a ∈ graphs, ∀ b ∈ graphs, a.module.hasBystanders = true →
    (Together merged a b ↔ b.module.hasBystanders = true ∧ b.module.name = a.module.name ∧
      ∀ name, name ∈ b.module.bystanders.getD [] ↔ name ∈ a.module.bystanders.getD [])
  /-- An extension never goes together with a graph of the module itself. -/
  extensions : ∀ a ∈ graphs, ∀ b ∈ graphs, a.module.hasBystanders = false →
    b.module.hasBystanders = false → Together merged a b →
    ((∃ module, a.name = .main module) ↔ ∃ module, b.name = .main module)
  /-- The base of a merged graph strictly precedes the overlays, and each overlay the next.
  What is not availability comes from the base. -/
  base : ∀ m ∈ merged, ∃ base overlays,
    (base :: overlays).Perm (graphs.filter fun graph => graph.role = m.role) ∧
    StrictlyInPrecedence (base :: overlays) ∧
    m.basePath = base.path ∧ m.overlayPaths = overlays.map UniqueGraph.path ∧
    m.metadata = base.metadata ∧ m.module = base.module ∧
    m.relationships = base.relationships ∧ m.symbols.keys = base.symbols.keys

/-- The paths of the graphs that groups are merged to are those of the graphs in the groups. -/
theorem paths_of_mergeAll {entries : List (Role × Group)} {assumptions : Assumptions}
    {all : List (MergedGraph × Tally)}
    (h : List.Forall₂ (fun entry m => (entry.2.merge entry.1 assumptions).result = .ok m)
      entries all) :
    (all.map Prod.fst).flatMap MergedGraph.paths =
      entries.flatMap fun entry => entry.2.members.map UniqueGraph.path := by
  induction h with
  | nil => rfl
  | cons hm _ ih =>
    obtain ⟨-, hmerged⟩ := Group.merge_eq_ok hm
    rw [List.map_cons, List.flatMap_cons, List.flatMap_cons, ih, hmerged]
    rfl

section Consolidated

variable {graphs : List UniqueGraph} {assumptions : Assumptions} {merged : List MergedGraph}
  {tally : Tally} (h : (consolidate graphs assumptions).result = .ok (merged, tally))
include h

/-- The base of a merged graph, and its overlays. -/
theorem exists_base_of_mem {m : MergedGraph} (hm : m ∈ merged) : ∃ base overlays,
    (base :: overlays).Perm (graphs.filter fun graph => graph.role = m.role) ∧
    StrictlyInPrecedence (base :: overlays) ∧
    m.basePath = base.path ∧ m.overlayPaths = overlays.map UniqueGraph.path ∧
    m.metadata = base.metadata ∧ m.module = base.module ∧
    m.relationships = base.relationships ∧ m.symbols.keys = base.symbols.keys := by
  obtain ⟨group, t, hgroup, hmerge⟩ := exists_group_of_mem h hm
  obtain ⟨hperm, -⟩ := Table.get?_groupByRole hgroup
  have hstrict := (consolidate_eq_ok_iff.mp h).1.rolemates m.role
  rw [Table.rolemates_of_get? hgroup] at hstrict
  obtain ⟨hextends, hmerged⟩ := Group.merge_eq_ok hmerge
  refine ⟨group.base, group.overlays, hperm, hstrict, ?_⟩
  rw [hmerged]
  exact ⟨rfl, rfl, rfl, rfl, rfl, hextends.keys_eq⟩

/-- The paths of the graphs of a role are those of the merged graph of the role. -/
theorem mem_paths_iff {m : MergedGraph} (hm : m ∈ merged) {graph : UniqueGraph}
    (hgraph : graph ∈ graphs) : graph.path ∈ m.paths ↔ graph.role = m.role := by
  obtain ⟨base, overlays, hperm, -, hbase, hoverlays, -⟩ := exists_base_of_mem h hm
  have hpaths : m.paths = (base :: overlays).map UniqueGraph.path := by
    rw [MergedGraph.paths, hbase, hoverlays, List.map_cons]
  rw [hpaths, List.mem_map]
  constructor
  · rintro ⟨graph', hgraph', hpath⟩
    obtain ⟨hmem, hrole⟩ := List.mem_filter.mp (hperm.mem_iff.mp hgraph')
    obtain rfl := (consolidate_eq_ok_iff.mp h).1.eq_of_path_eq hmem hgraph hpath
    simpa using hrole
  · intro hrole
    refine ⟨graph, hperm.mem_iff.mpr (List.mem_filter.mpr ⟨hgraph, ?_⟩), rfl⟩
    simpa using hrole

/-- No graph gets lost in merging, and none is doubled. -/
theorem paths_perm :
    (merged.flatMap MergedGraph.paths).Perm (graphs.map UniqueGraph.path) := by
  obtain ⟨-, all, hall, rfl, -⟩ := consolidate_eq_ok_iff.mp h
  refine ((merged_perm hall).flatMap_right _).trans ?_
  rw [paths_of_mergeAll hall, ← List.map_flatMap]
  exact (groupByRole_entries_perm graphs).map _

/-- **Partition.** Consolidation divides the graphs by their roles. -/
theorem consolidate_isPartition : IsPartition graphs merged := by
  have htogether : ∀ a ∈ graphs, ∀ b ∈ graphs, Together merged a b ↔ a.role = b.role := by
    intro a ha b hb
    constructor
    · rintro ⟨m, hm, hma, hmb⟩
      rw [(mem_paths_iff h hm ha).mp hma, (mem_paths_iff h hm hb).mp hmb]
    · intro hrole
      obtain ⟨m, hm, hmrole⟩ := exists_merged_of_mem h ha
      exact ⟨m, hm, (mem_paths_iff h hm ha).mpr hmrole.symm,
        (mem_paths_iff h hm hb).mpr (hrole.symm.trans hmrole.symm)⟩
  constructor
  case paths => exact paths_perm h
  case differ => exact (consolidate_eq_ok_iff.mp h).1.perm (paths_perm h).symm
  case together_iff => exact htogether
  case bystanders =>
    intro a ha b hb hbystanders
    rw [htogether a ha b hb, UniqueGraph.role_eq_iff_of_bystanders hbystanders]
  case extensions =>
    intro a ha b hb hna hnb hab
    exact UniqueGraph.single_iff_of_role_eq ((htogether a ha b hb).mp hab) hna hnb
  case base => exact fun m hm => exists_base_of_mem h hm

end Consolidated

/-- A graph without symbols, for the usual environment or for another one. -/
def bareGraph (path : String) (environment : Option String) : UniqueGraph where
  path := .ofText path
  name := .main "M"
  metadata := ⟨⟨1, 0, 0, none, none⟩, "g"⟩
  module := ⟨"M", ⟨none, none, none, environment⟩, none, false⟩
  symbols := .empty
  relationships := []
  collapsed := 0

/-- A graph for another environment and one for the usual environment are merged
into one graph. -/
theorem consolidate_isPartition_pair : ∃ merged tally,
    (consolidate [bareGraph "a/M.symbols.json" (some "macabi"),
      bareGraph "b/M.symbols.json" none] .empty).result = .ok (merged, tally) ∧
    IsPartition [bareGraph "a/M.symbols.json" (some "macabi"),
      bareGraph "b/M.symbols.json" none] merged := by
  have hok :
      (consolidate [bareGraph "a/M.symbols.json" (some "macabi"),
        bareGraph "b/M.symbols.json" none]
      .empty).result.toBool = true := by decide +kernel
  obtain ⟨⟨merged, tally⟩, h⟩ := Except.toBool_eq_true_iff.mp hok
  exact ⟨merged, tally, h, consolidate_isPartition h⟩

end ApiSurface
