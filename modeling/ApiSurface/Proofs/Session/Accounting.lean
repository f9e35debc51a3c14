import ApiSurface.Proofs.Merging.MergedSymbols
import ApiSurface.Proofs.Merging.Totals
import ApiSurface.Proofs.Merging.UniqueSymbols
import ApiSurface.Proofs.Session.InputOrder

/-!
# The report of a load

What a load reports has been counted in three places: when entries with one identifier are
collapsed, when overlays are applied, and when assumed availability is added. Here the
report is checked against what went in and what came out. Every file is a merged graph or an
overlay of one, there is a merged graph for each role, an entry that is not kept is counted
as collapsed, and the statements added are those that the symbols of the merged graphs have
gained over the entries kept in the base.

## Main results

* `consolidate_accounts`: the numbers that consolidation gives.
* `Report.Accounts`, `Loader.load_accounts`: the numbers in a report.
-/

namespace ApiSurface

/-! ### Consolidation -/

/-- A number that adds up when what was done in two places is put together adds up
over a list. -/
theorem Tally.foldl_add (f : Tally → Nat) (zero : f .zero = 0)
    (add : ∀ s t, f (s.add t) = f s + f t) (tallies : List Tally) :
    f (tallies.foldl Tally.add .zero) = (tallies.map f).sum := by
  have hfold (tally : Tally) :
      f (tallies.foldl Tally.add tally) = f tally + (tallies.map f).sum := by
    induction tallies generalizing tally with
    | nil => rfl
    | cons t tallies ih =>
      rw [List.foldl_cons, ih, add, List.map_cons, List.sum_cons, Nat.add_assoc]
  rw [hfold, zero, Nat.zero_add]

/-- How many statements were added, by overlays or as assumed ones. -/
def Tally.items (tally : Tally) : Nat := tally.overlayItems + tally.assumedItems

/-- The statements added in two places. -/
theorem Tally.items_add (s t : Tally) : (s.add t).items = s.items + t.items := by
  simp only [items, add]
  omega

/-- The symbols that the merged graph of a role takes over, where the groups of some
graphs are given. -/
def baseSymbols (groups : Table Role Group) (role : Role) : Table String Symbol :=
  (groups.get? role).elim .empty fun group => group.base.symbols

section Consolidated

variable {graphs : List UniqueGraph} {assumptions : Assumptions} {merged : List MergedGraph}
  {tally : Tally}

/-- Each group has one graph besides its overlays. -/
theorem overlays_add_groups {all : List (MergedGraph × Tally)}
    (h : List.Forall₂ (fun entry m => (entry.2.merge entry.1 assumptions).result = .ok m)
      (groupByRole graphs).entries all) :
    (all.map fun m => m.2.overlaysApplied).sum + all.length = graphs.length := by
  have hmembers : (all.map fun m => m.2.overlaysApplied + 1) =
      (groupByRole graphs).entries.map fun entry => entry.2.members.length :=
    Except.map_eq_of_forall₂ (fun _ _ hm => congrArg (· + 1) (Group.merge_total hm).1) h
  rw [← (groupByRole_entries_perm graphs).length_eq, List.length_flatMap, ← hmembers,
    List.sum_map_add]
  simp

/-- The statements added are those that the symbols of the merged graphs have gained. -/
theorem items_eq_sum_gained {all : List (MergedGraph × Tally)}
    (h : List.Forall₂ (fun entry m => (entry.2.merge entry.1 assumptions).result = .ok m)
      (groupByRole graphs).entries all) :
    (all.map fun m => m.2.items).sum =
      (all.map fun m => (m.1.symbols.keys.map
        (gainedUnder (baseSymbols (groupByRole graphs) m.1.role) m.1.symbols)).sum).sum := by
  refine congrArg List.sum (List.map_congr_left fun m hm => ?_)
  obtain ⟨entry, hentry, hmerge⟩ := Except.exists_of_forall₂ h hm
  have hbase : baseSymbols (groupByRole graphs) m.1.role = entry.2.base.symbols := by
    rw [role_of_merge hmerge, baseSymbols, Table.mem_entries_iff.mp hentry, Option.elim_some]
  rw [hbase]
  exact Group.merge_gains hmerge

/-- What consolidation counts: every graph is the base of a merged graph or an overlay of
one, there is a merged graph for each role, and the statements added are those that symbols
have gained. -/
theorem consolidate_accounts
    (h : (consolidate graphs assumptions).result = .ok (merged, tally)) :
    merged.length + tally.overlaysApplied = graphs.length ∧
      merged.length = (graphs.map UniqueGraph.role).toFinset.card ∧
      tally.overlayItems + tally.assumedItems = (merged.map fun m => (m.symbols.keys.map
        (gainedUnder (baseSymbols (groupByRole graphs) m.role) m.symbols)).sum).sum := by
  obtain ⟨-, all, hall, rfl, rfl⟩ := consolidate_eq_ok_iff.mp h
  have hperm := merged_perm hall
  have hlength : (listed (all.map Prod.fst)).length = all.length :=
    hperm.length_eq.trans (List.length_map _)
  refine ⟨?_, ?_, ?_⟩
  · rw [hlength, Tally.foldl_add Tally.overlaysApplied rfl (fun _ _ => rfl), List.map_map,
      Nat.add_comm]
    exact overlays_add_groups hall
  · rw [hlength, ← hall.length_eq]
    exact Table.size_eq_card fun role => by rw [mem_keys_groupByRole_iff, List.mem_map]
  · rw [← Tally.items, Tally.foldl_add Tally.items rfl Tally.items_add, List.map_map,
      (hperm.map _).sum_eq, List.map_map]
    exact items_eq_sum_gained hall

/-- Each symbol of a merged graph has gained statements over the one kept in the base. -/
theorem exists_gains_of_mem (h : (consolidate graphs assumptions).result = .ok (merged, tally))
    {m : MergedGraph} (hm : m ∈ merged) : ∃ base ∈ graphs, base.path = m.basePath ∧
      ∀ precise symbol, m.symbols.get? precise = some symbol →
        ∃ original, base.symbols.get? precise = some original ∧ original.Gains symbol
          (gainedUnder (baseSymbols (groupByRole graphs) m.role) m.symbols precise) := by
  obtain ⟨group, t, hgroup, hmerge⟩ := exists_group_of_mem h hm
  obtain ⟨hextends, hmerged⟩ := Group.merge_eq_ok hmerge
  have hmem : group.base ∈ group.members := List.mem_cons_self
  have hbase : baseSymbols (groupByRole graphs) m.role = group.base.symbols := by
    rw [baseSymbols, hgroup, Option.elim_some]
  refine ⟨group.base, ((Table.mem_members_iff hgroup).mp hmem).1, by rw [hmerged]; rfl, ?_⟩
  intro precise symbol hsymbol
  obtain ⟨original, horiginal, -, hgains⟩ := hextends.exists_gains hsymbol
  exact ⟨original, horiginal, hbase ▸ hgains⟩

end Consolidated

/-! ### Loads -/

/-- The role of the graph that has been decoded from a file. -/
def DecodedGraph.role (decoded : DecodedGraph) : Role := decoded.name.role decoded.graph.module

/-- The numbers in a report, checked against what was decoded and what came out. -/
structure Report.Accounts (report : Report) (sources : List Source)
    (decoded : List DecodedGraph) (graphs : List MergedGraph) : Prop where
  /-- Files are counted as they are given. -/
  files : report.files = sources.length
  /-- Each file has become a merged graph or an overlay of one. -/
  conserved : report.files = report.graphs + report.tally.overlaysApplied
  /-- Merged graphs are counted as they come out. -/
  outputs : report.graphs = graphs.length
  /-- There is one for each role. -/
  roles : report.graphs = (decoded.map DecodedGraph.role).toFinset.card
  /-- Of all entries decoded, those are collapsed that are more than the identifiers
  of their file. -/
  collapsed : report.collapsed +
      (decoded.map fun d => (d.graph.symbols.map Symbol.precise).toFinset.card).sum =
    (decoded.map fun d => d.graph.symbols.length).sum
  /-- The statements added are those that symbols of the merged graphs have gained over the
  entries kept in the base. -/
  items : ∃ gained : MergedGraph → String → Nat,
    report.tally.overlayItems + report.tally.assumedItems =
        (graphs.map fun m => (m.symbols.keys.map (gained m)).sum).sum ∧
      ∀ m ∈ graphs, ∃ base ∈ decoded, base.path = m.basePath ∧
        ∀ precise symbol, m.symbols.get? precise = some symbol →
          ∃ original, base.unique.symbols.get? precise = some original ∧
            original.Gains symbol (gained m precise)

/-- The entries that were dropped are summed up. -/
theorem collapsedIn_eq_sum (graphs : List UniqueGraph) :
    collapsedIn graphs = (graphs.map UniqueGraph.collapsed).sum := by
  rw [List.sum_eq_foldl, List.foldl_map]
  rfl

/-- The report on a load that has consolidated what was decoded. -/
theorem loadReport_accounts {plan : Plan} {sources : List Source} {requests : List Request}
    {decoded : List DecodedGraph} {assumptions : Assumptions}
    {merged : List MergedGraph × Tally} (files : requests.length = sources.length)
    (each : decoded.length = requests.length)
    (h : (consolidate (decoded.map DecodedGraph.unique) assumptions).result = .ok merged) :
    (loadReport plan requests decoded merged).1.Accounts sources decoded merged.1 := by
  obtain ⟨hconserved, hroles, hitems⟩ := consolidate_accounts h
  constructor
  case files => exact files
  case conserved =>
    rw [List.length_map, each] at hconserved
    exact hconserved.symm
  case outputs => rfl
  case roles =>
    rw [List.map_map] at hroles
    exact hroles
  case collapsed =>
    show collapsedIn (decoded.map DecodedGraph.unique) + _ = _
    rw [collapsedIn_eq_sum, List.map_map, ← List.sum_map_add]
    exact congrArg List.sum (List.map_congr_left fun d _ => d.collapsed_unique)
  case items =>
    refine ⟨_, hitems, fun m hm => ?_⟩
    obtain ⟨base, hbase, hpath, hgains⟩ := exists_gains_of_mem h hm
    obtain ⟨d, hd, rfl⟩ := List.mem_map.mp hbase
    exact ⟨d, hd, hpath, hgains⟩

/-- A load that succeeds gives the report on a load of its sources, and has the
graphs afterwards. -/
theorem Loader.load_eq_ok {loader : Loader} {disk : Disk} {report : Report}
    (h : (loader.load disk).1.result = .ok report) :
    (loadGraphs disk loader.assumptions loader.profile loader.policy loader.sources).result =
      .ok (report, (loader.load disk).2.graphs) := by
  obtain ⟨sources, assumptions, profile, policy, progress⟩ := loader
  cases progress with
  | loaded _ _ => cases h
  | pending =>
    simp only [load] at h ⊢
    cases hresult : (loadGraphs disk assumptions profile policy sources).result with
    | error fault =>
      rw [hresult] at h
      cases h
    | ok r =>
      rw [hresult] at h
      cases h
      rfl

/-- **Accounting.** The numbers that a load reports are those of what it was given and
what it gives. -/
theorem Loader.load_accounts {loader : Loader} {disk : Disk} {report : Report}
    (h : (loader.load disk).1.result = .ok report) :
    ∃ requests decoded, acceptAll loader.sources = .ok requests ∧
      (report.plan.decode loader.profile disk requests).result = .ok decoded ∧
      report.Accounts loader.sources decoded (loader.load disk).2.graphs := by
  obtain ⟨requests, decoded, merged, hrequests, hdecoded, hmerged, hreport⟩ :=
    loadGraphs_eq_ok_iff.mp (load_eq_ok h)
  obtain ⟨rfl, hgraphs⟩ := Prod.mk.inj hreport
  refine ⟨requests, decoded, ?_, ?_, ?_⟩
  · rw [acceptAll_eq_mapM, hrequests]
  · rw [Plan.decode_result]
    exact hdecoded
  · rw [← hgraphs]
    refine loadReport_accounts ?_ ?_ hmerged
    · exact (Except.mapM_eq_ok_iff.mp hrequests).length_eq.symm
    · exact (Except.mapM_eq_ok_iff.mp hdecoded).length_eq.symm

/-- A function that is available for a domain, as it stands in a file. -/
def availableFunction (domain : String) : String :=
  "\x7b\"identifier\":[\"f\",\"l\"],\"kind\":[\"k\",\"d\"]," ++
    "\"availability\":[\x7b\"domain\":\"" ++ domain ++ "\"\x7d]\x7d"

/-- The `async` form of the function, as it stands in a file. -/
def asyncFunction : String :=
  "\x7b\"identifier\":[\"f\",\"l\"],\"kind\":[\"k\",\"d\"]," ++
    "\"declarationFragments\":[[\"keyword\",\"async\"]]\x7d"

/-- A source with a graph of a module that has some symbols. -/
def sourceOfSymbols (path : String) (symbols : List String) : Source :=
  ⟨.ofText path,
    some (Text.bytes ("[[[1],\"g\"],[\"M\"],[" ++ String.intercalate "," symbols ++ "]]"))⟩

/-- A loader of two graphs of a module, for two domains, where availability for a third one
is assumed. One of the graphs has two entries with one identifier. -/
def loaderForTwoDomains : Loader where
  sources :=
    [sourceOfSymbols "a/M.symbols.json" [asyncFunction, availableFunction "iOS"],
      sourceOfSymbols "b/M.symbols.json" [availableFunction "watchOS"]]
  assumptions := thirdDomainAssumed
  profile := ⟨true, 1, 1⟩
  policy := .byFileCount
  progress := .pending

/-- Of three entries in two files one is collapsed, and the symbol that remains gains a
statement from the overlay and one that is assumed. -/
theorem Loader.load_accounts_twoDomains : ∃ report requests decoded,
    (loaderForTwoDomains.load ⟨.emptyDirectory, []⟩).1.result = .ok report ∧
    report.files = 2 ∧ report.graphs = 1 ∧ report.collapsed = 1 ∧ report.tally = ⟨1, 1, 1⟩ ∧
    acceptAll loaderForTwoDomains.sources = .ok requests ∧
    (report.plan.decode loaderForTwoDomains.profile ⟨.emptyDirectory, []⟩ requests).result =
      .ok decoded ∧
    report.Accounts loaderForTwoDomains.sources decoded
      (loaderForTwoDomains.load ⟨.emptyDirectory, []⟩).2.graphs := by
  have hview : (loaderForTwoDomains.load ⟨.emptyDirectory, []⟩).1.result.toOption =
      some ⟨.wholeFiles, 2, 1, 1, ⟨1, 1, 1⟩⟩ := by decide +kernel
  cases h : (loaderForTwoDomains.load ⟨.emptyDirectory, []⟩).1.result with
  | error fault => rw [h] at hview; cases hview
  | ok report =>
    rw [h, Except.toOption, Option.some.injEq] at hview
    obtain ⟨requests, decoded, hrequests, hdecoded, haccounts⟩ := Loader.load_accounts h
    refine ⟨report, requests, decoded, rfl, ?_, ?_, ?_, ?_, hrequests, hdecoded, haccounts⟩ <;>
      rw [hview]

end ApiSurface
