import ApiSurface.Proofs.Merging.Consolidation
import ApiSurface.Proofs.Reading.Plans
import ApiSurface.Session.Loader

/-!
# The order of the sources

A load does not depend on the order in which its sources are given. Sources are accepted and
decoded one by one, so either all of them are, in every order, or some is not; and
consolidation does not care for the order of the graphs. Only which fault of several is
found first may depend on the order, and not even that once all sources have been decoded.

## Main results

* `loadGraphs_eq_ok_iff`: when a load succeeds, and what comes out.
* `loadGraphs_ok_perm`, `loadGraphs_perm`: the order of the sources does not matter.
* `Loader.load_perm`: the same for a loader that has not loaded anything.
-/

namespace ApiSurface

/-! ### Steps of a load -/

/-- Accepting all sources is a step for each source. -/
theorem acceptAll_eq_mapM (sources : List Source) :
    acceptAll sources = sources.mapM Source.request := by
  induction sources with
  | nil => rfl
  | cons source sources ih => rw [acceptAll, List.mapM_cons, ih]

/-- The dropped entries of some graphs are counted in any order. -/
theorem collapsedIn_perm {graphs graphs' : List UniqueGraph} (perm : graphs.Perm graphs') :
    collapsedIn graphs = collapsedIn graphs' := by
  have comm : RightCommutative fun count (graph : UniqueGraph) => count + graph.collapsed :=
    ⟨fun count g g' => Nat.add_right_comm count g.collapsed g'.collapsed⟩
  exact perm.foldl_eq 0

/-- The report on a load by a plan, and the merged graphs. -/
def loadReport (plan : Plan) (requests : List Request) (decoded : List DecodedGraph)
    (merged : List MergedGraph × Tally) : Report × List MergedGraph :=
  (⟨plan, requests.length, merged.1.length, collapsedIn (decoded.map DecodedGraph.unique),
    merged.2⟩, merged.1)

/-- The result of a load: names are looked at first, then all sources are decoded, and then
the graphs are consolidated. -/
theorem loadGraphs_result (disk : Disk) (assumptions : Assumptions) (profile : Profile)
    (policy : Policy) (sources : List Source) :
    (loadGraphs disk assumptions profile policy sources).result = do
      let requests ← (sources.mapM Source.request).mapError .name
      let plan := policy.plan requests.length profile
      let decoded ← requests.mapM fun request => request.decodeBy disk (plan.read profile)
      let merged ←
        (consolidate (decoded.map DecodedGraph.unique) assumptions).result.mapError .merge
      return loadReport plan requests decoded merged := by
  simp only [loadGraphs, Traced.result_bind, Traced.result_ofExcept, Traced.result_note,
    Traced.result_pure, Traced.result_mapError, acceptAll_eq_mapM, Plan.decode_result,
    Except.ok_bind]
  rfl

variable {disk : Disk} {assumptions : Assumptions} {profile : Profile} {policy : Policy}
  {sources sources' : List Source}

/-- A load succeeds if all sources are accepted and decoded, and the graphs can be
consolidated. -/
theorem loadGraphs_eq_ok_iff {r : Report × List MergedGraph} :
    (loadGraphs disk assumptions profile policy sources).result = .ok r ↔
      ∃ requests decoded merged, sources.mapM Source.request = .ok requests ∧
        requests.mapM (fun request =>
          request.decodeBy disk ((policy.plan requests.length profile).read profile)) =
            .ok decoded ∧
        (consolidate (decoded.map DecodedGraph.unique) assumptions).result = .ok merged ∧
        loadReport (policy.plan requests.length profile) requests decoded merged = r := by
  rw [loadGraphs_result]
  simp only [Except.bind_eq_ok_iff, Except.mapError_eq_ok_iff, Except.pure_eq_ok_iff]
  constructor
  · rintro ⟨requests, hrequests, decoded, hdecoded, merged, hmerged, hr⟩
    exact ⟨requests, decoded, merged, hrequests, hdecoded, hmerged, hr⟩
  · rintro ⟨requests, decoded, merged, hrequests, hdecoded, hmerged, hr⟩
    exact ⟨requests, hrequests, decoded, hdecoded, merged, hmerged, hr⟩

/-- The report on a load does not depend on the order of what was decoded. -/
theorem loadReport_perm (plan : Plan) {requests requests' : List Request}
    {decoded decoded' : List DecodedGraph} (hrequests : requests.Perm requests')
    (hdecoded : decoded.Perm decoded') (merged : List MergedGraph × Tally) :
    loadReport plan requests decoded merged = loadReport plan requests' decoded' merged := by
  rw [loadReport, loadReport, hrequests.length_eq, collapsedIn_perm (hdecoded.map _)]

/-! ### Sources in any order -/

/-- A load succeeds for every order of the sources or for none, and with the same
report and graphs. -/
theorem loadGraphs_ok_perm (perm : sources.Perm sources') {r : Report × List MergedGraph}
    (h : (loadGraphs disk assumptions profile policy sources).result = .ok r) :
    (loadGraphs disk assumptions profile policy sources').result = .ok r := by
  obtain ⟨requests, decoded, merged, hrequests, hdecoded, hmerged, rfl⟩ :=
    loadGraphs_eq_ok_iff.mp h
  obtain ⟨requests', hrequests', hperm⟩ := Except.mapM_perm perm hrequests
  obtain ⟨decoded', hdecoded', hperm'⟩ := Except.mapM_perm hperm hdecoded
  rw [hperm.length_eq] at hdecoded'
  refine loadGraphs_eq_ok_iff.mpr ⟨requests', decoded', merged, hrequests', hdecoded', ?_, ?_⟩
  · exact consolidate_ok_perm (hperm'.map _) hmerged
  · rw [hperm.length_eq]
    exact (loadReport_perm _ hperm hperm' merged).symm

/-- Whether a source is accepted by its name, and decoded if its text is read in some way. -/
def Source.Decodes (source : Source) (disk : Disk)
    (read : List UInt8 → Except Json.Diagnostic SymbolGraph) : Prop :=
  ∃ request decoded, source.request = .ok request ∧ request.decodeBy disk read = .ok decoded

instance (source : Source) (disk : Disk)
    (read : List UInt8 → Except Json.Diagnostic SymbolGraph) :
    Decidable (source.Decodes disk read) :=
  match h : source.request with
  | .ok request => decidable_of_iff ((request.decodeBy disk read).toBool = true) <| by
    simp only [Source.Decodes, h, Except.ok.injEq, exists_and_left, exists_eq_left',
      Except.toBool_eq_true_iff]
  | .error fault => .isFalse <| by
    rintro ⟨request, -, hrequest, -⟩
    rw [h] at hrequest
    cases hrequest

/-- The graphs decoded from some sources have the paths of the sources. -/
theorem paths_of_decode {requests : List Request} {decoded : List DecodedGraph}
    {read : List UInt8 → Except Json.Diagnostic SymbolGraph}
    (hrequests : sources.mapM Source.request = .ok requests)
    (hdecoded : requests.mapM (fun request => request.decodeBy disk read) = .ok decoded) :
    (decoded.map DecodedGraph.unique).map UniqueGraph.path = sources.map Source.path := by
  have hpaths :
      decoded.map DecodedGraph.path = requests.map fun request => request.source.path := by
    refine Except.map_eq_of_forall₂ (fun request d hd => ?_)
      (Except.mapM_eq_ok_iff.mp hdecoded)
    obtain ⟨text, g, -, -, rfl⟩ := Request.decodeBy_eq_ok_iff.mp hd
    rfl
  have hsources :
      requests.map (fun request => request.source.path) = sources.map Source.path := by
    refine Except.map_eq_of_forall₂ (fun source request hrequest => ?_)
      (Except.mapM_eq_ok_iff.mp hrequests)
    obtain ⟨name, -, rfl⟩ := Except.map_eq_ok_iff.mp hrequest
    rfl
  rw [List.map_map, ← hsources, ← hpaths]
  rfl

/-- If all sources are decoded and their paths differ, a load gives the same for every order
of the sources, also if it fails. -/
theorem loadGraphs_perm (perm : sources.Perm sources')
    (decodes : ∀ source ∈ sources,
      source.Decodes disk ((policy.plan sources.length profile).read profile))
    (differ : PathsDiffer (sources.map Source.path)) :
    (loadGraphs disk assumptions profile policy sources).result =
      (loadGraphs disk assumptions profile policy sources').result := by
  obtain ⟨requests, hrequests⟩ : ∃ requests, sources.mapM Source.request = .ok requests :=
    Except.exists_mapM_eq_ok_iff.mpr fun source hsource => by
      obtain ⟨request, -, hrequest, -⟩ := decodes source hsource
      exact ⟨request, hrequest⟩
  have hlength : requests.length = sources.length :=
    (Except.mapM_eq_ok_iff.mp hrequests).length_eq.symm
  obtain ⟨decoded, hdecoded⟩ : ∃ decoded, (requests.mapM fun request =>
      request.decodeBy disk ((policy.plan requests.length profile).read profile)) =
          .ok decoded :=
    Except.exists_mapM_eq_ok_iff.mpr fun request hmem => by
      obtain ⟨source, hsource, hrequest⟩ :=
        Except.exists_of_forall₂ (Except.mapM_eq_ok_iff.mp hrequests) hmem
      obtain ⟨request', d, hrequest', hd⟩ := decodes source hsource
      rw [hrequest, Except.ok.injEq] at hrequest'
      subst hrequest'
      exact ⟨d, hlength ▸ hd⟩
  obtain ⟨requests', hrequests', hperm⟩ := Except.mapM_perm perm hrequests
  obtain ⟨decoded', hdecoded', hperm'⟩ := Except.mapM_perm hperm hdecoded
  -- From here on only consolidation can fail, and that it does in the same way.
  have hconsolidate := consolidate_perm (hperm'.map DecodedGraph.unique)
    (paths_of_decode hrequests hdecoded ▸ differ) assumptions
  rw [loadGraphs_result, loadGraphs_result, hrequests, hrequests']
  simp only [Except.mapError, Except.ok_bind, hdecoded, ← hperm.length_eq, hdecoded',
    hconsolidate, loadReport_perm _ hperm hperm']

/-! ### Loaders -/

section Loading

variable {host : Profile} {settings : Settings}

/-- What a fresh loader gives is the report on a load. -/
theorem Loader.load_start_result :
    ((Loader.start host settings policy sources).load disk).1.result =
      (loadGraphs disk settings.assumptions (Profile.ofSettings host settings) policy
        sources).result.map Prod.fst := by
  simp only [Loader.load, Loader.start]
  cases (loadGraphs disk settings.assumptions (Profile.ofSettings host settings) policy
    sources).result <;> rfl

/-- The graphs of a loader after its load: none if it has failed. -/
theorem Loader.load_start_graphs :
    ((Loader.start host settings policy sources).load disk).2.graphs =
      ((loadGraphs disk settings.assumptions (Profile.ofSettings host settings) policy
        sources).result.toOption.map Prod.snd).getD [] := by
  simp only [Loader.load, Loader.start]
  cases (loadGraphs disk settings.assumptions (Profile.ofSettings host settings) policy
    sources).result <;> rfl

/-- What a load gives if it succeeds does not depend on the order of the sources. -/
theorem loadGraphs_toOption_perm (perm : sources.Perm sources') :
    (loadGraphs disk assumptions profile policy sources).result.toOption =
      (loadGraphs disk assumptions profile policy sources').result.toOption := by
  cases h : (loadGraphs disk assumptions profile policy sources).result with
  | ok r => rw [loadGraphs_ok_perm perm h]
  | error fault =>
    cases h' : (loadGraphs disk assumptions profile policy sources').result with
    | ok r =>
      rw [loadGraphs_ok_perm perm.symm h'] at h
      cases h
    | error fault' => rfl

/-- **Sources in any order.** A loader succeeds for every order of its sources or for none,
and then with the same report and graphs. If all sources are decoded and their paths differ,
it also fails with the same fault. -/
theorem Loader.load_perm (perm : sources.Perm sources') :
    (∀ report,
      ((Loader.start host settings policy sources).load disk).1.result = .ok report ↔
        ((Loader.start host settings policy sources').load disk).1.result = .ok report) ∧
    ((Loader.start host settings policy sources).load disk).2.graphs =
      ((Loader.start host settings policy sources').load disk).2.graphs ∧
    ((∀ source ∈ sources, source.Decodes disk
        ((policy.plan sources.length (Profile.ofSettings host settings)).read
          (Profile.ofSettings host settings))) →
      PathsDiffer (sources.map Source.path) →
      ((Loader.start host settings policy sources).load disk).1.result =
        ((Loader.start host settings policy sources').load disk).1.result) := by
  refine ⟨fun report => ?_, ?_, fun decodes differ => ?_⟩
  · rw [Loader.load_start_result, Loader.load_start_result, Except.map_eq_ok_iff,
      Except.map_eq_ok_iff]
    constructor
    · rintro ⟨r, hr, rfl⟩
      exact ⟨r, loadGraphs_ok_perm perm hr, rfl⟩
    · rintro ⟨r, hr, rfl⟩
      exact ⟨r, loadGraphs_ok_perm perm.symm hr, rfl⟩
  · rw [Loader.load_start_graphs, Loader.load_start_graphs, loadGraphs_toOption_perm perm]
  · rw [Loader.load_start_result, Loader.load_start_result,
      loadGraphs_perm perm decodes differ]

/-- A source with the graph of a module, which has a single symbol with the given
identifier. -/
def symbolSource (path precise : String) : Source :=
  ⟨.ofText path, some (Text.bytes ("[[[1],\"g\"],[\"M\"],[\x7b\"identifier\":[\"" ++ precise ++
    "\",\"swift\"],\"kind\":[\"func\",\"Function\"]\x7d]]"))⟩

/-- Two graphs of a module that have no symbol in common. -/
def disjointSources : List Source :=
  [symbolSource "a/M.symbols.json" "s", symbolSource "b/M.symbols.json" "t"]

/-- Two graphs that have no symbol in common cannot be loaded in either order, for the
same reason. -/
theorem Loader.load_reverse_disjoint :
    disjointSources.Perm disjointSources.reverse ∧
      ((Loader.start ⟨true, 1, 1⟩ .usual .byFileCount disjointSources).load
          ⟨.emptyDirectory, []⟩).1.result.toBool = false ∧
      ((Loader.start ⟨true, 1, 1⟩ .usual .byFileCount disjointSources).load
          ⟨.emptyDirectory, []⟩).1.result =
        ((Loader.start ⟨true, 1, 1⟩ .usual .byFileCount disjointSources.reverse).load
          ⟨.emptyDirectory, []⟩).1.result := by
  have hperm : disjointSources.Perm disjointSources.reverse :=
    disjointSources.reverse_perm.symm
  refine ⟨hperm, by decide +kernel, (Loader.load_perm hperm).2.2 ?_ ?_⟩
  · decide +kernel
  · decide +kernel

end Loading

end ApiSurface
