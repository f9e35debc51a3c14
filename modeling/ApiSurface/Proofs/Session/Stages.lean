import ApiSurface.Proofs.Reading.Diagnostics
import ApiSurface.Proofs.Session.InputOrder

/-!
# The stages of a load

A load looks at all names, then decodes all sources, and then consolidates their graphs. A
stage is reached only if the one before it has succeeded for all sources, so of the faults
in some sources one of the earliest stage is reported, wherever the others are. Within a
stage names are looked at one after the other, and in batches sources are decoded so too;
then it is the first fault in the order of the sources. Sources that are decoded as a whole
are shared by workers, and it is not said which of them meets a fault first. What is shown
of a load therefore holds for all that its workers can come to.

A load that fails leaves nothing behind: the loader has no graphs and hands out none.

## Main definitions

* `Plan.Gives`, `Loader.Gives`: what decoding and a load can come to.
* `Loader.Staged`: the stages of a load are respected.

## Main results

* `Loader.gives_load`: a load comes to one of the things it can come to.
* `Loader.load_staged`: all of them respect the stages.
-/

namespace ApiSurface

open Json

/-! ### Sources -/

namespace Source

variable {source : Source} {request : Request} {disk : Disk}
  {read : List UInt8 → Except Diagnostic SymbolGraph}

/-- What a source is decoded to if its text is read in some way. -/
def DecodesTo (source : Source) (disk : Disk)
    (read : List UInt8 → Except Diagnostic SymbolGraph) (decoded : DecodedGraph) : Prop :=
  ∃ request, source.request = .ok request ∧ request.decodeBy disk read = .ok decoded

/-- Why a source that is accepted by its name cannot be decoded. -/
def Undecodable (source : Source) (disk : Disk)
    (read : List UInt8 → Except Diagnostic SymbolGraph) (cause : DecodeFault) : Prop :=
  ∃ request, source.request = .ok request ∧ request.CannotBeRead disk read cause

/-- A source is accepted exactly if its path ends in a name of a symbol graph file. -/
theorem request_eq_ok_iff :
    source.request = .ok request ↔ GraphName.ofPath source.path = .ok request.name ∧
      request.source = source := by
  rw [Source.request, Except.map_eq_ok_iff]
  constructor
  · rintro ⟨name, hname, rfl⟩
    exact ⟨hname, rfl⟩
  · rintro ⟨hname, rfl⟩
    exact ⟨request.name, hname, rfl⟩

/-- A source is not accepted exactly if its path ends in none. -/
theorem request_eq_error_iff {fault : NameFault} :
    source.request = .error fault ↔ GraphName.ofPath source.path = .error fault := by
  rw [Source.request]
  cases GraphName.ofPath source.path <;> simp [Except.map]

/-- The requests for some sources are for these sources. -/
theorem map_source_of_mapM {sources : List Source} {requests : List Request}
    (h : sources.mapM Source.request = .ok requests) :
    requests.map Request.source = sources ∧
      ∀ request ∈ requests, request.source.request = .ok request := by
  have heach := Except.mapM_eq_ok_iff.mp h
  refine ⟨?_, fun request hmem => ?_⟩
  · have hmap : requests.map Request.source = sources.map id := by
      refine Except.map_eq_of_forall₂ (fun source request hrequest => ?_) heach
      exact (request_eq_ok_iff.mp hrequest).2
    rw [hmap, List.map_id]
  · obtain ⟨source, -, hrequest⟩ := Except.exists_of_forall₂ heach hmem
    rw [(request_eq_ok_iff.mp hrequest).2]
    exact hrequest

/-- The source of a request is decoded if the request is. -/
theorem decodes_iff (h : source.request = .ok request) :
    source.Decodes disk read ↔ ∃ decoded, request.decodeBy disk read = .ok decoded := by
  constructor
  · rintro ⟨request', decoded, hrequest', hdecoded⟩
    rw [h, Except.ok.injEq] at hrequest'
    subst hrequest'
    exact ⟨decoded, hdecoded⟩
  · rintro ⟨decoded, hdecoded⟩
    exact ⟨request, decoded, h, hdecoded⟩

/-- A source that cannot be decoded is not. -/
theorem Undecodable.not_decodes {cause : DecodeFault}
    (h : source.Undecodable disk read cause) : ¬ source.Decodes disk read := by
  obtain ⟨request, hrequest, hcause⟩ := h
  rw [decodes_iff hrequest]
  rintro ⟨decoded, hdecoded⟩
  obtain ⟨text, g, htext, hg, -⟩ := Request.decodeBy_eq_ok_iff.mp hdecoded
  cases cause with
  | file fault => cases hcause.symm.trans htext
  | json diagnostic =>
    obtain ⟨text', htext', hd⟩ := hcause
    cases htext'.symm.trans htext
    cases hd.symm.trans hg

end Source

/-! ### Decoding -/

/-- What workers that decode the sources by a plan can come to: the graphs of all sources in
their order if all can be decoded, and otherwise the fault of a source that cannot be. In
batches it is the first such source; as wholes the sources are decoded at the same time, and
it is not said which of them it is. -/
inductive Plan.Gives (plan : Plan) (profile : Profile) (disk : Disk)
    (requests : List Request) :
    Except LoadFault (List DecodedGraph) → Prop
  | graphs {decoded : List DecodedGraph} :
      List.Forall₂ (fun request d => request.decodeBy disk (plan.read profile) = .ok d)
        requests decoded →
      Gives plan profile disk requests (.ok decoded)
  | fault {before after : List Request} {request : Request} {fault : LoadFault} :
      requests = before ++ request :: after →
      request.decodeBy disk (plan.read profile) = .error fault →
      (plan = .batchedSymbols →
        ∀ other ∈ before, ∃ d, other.decodeBy disk (plan.read profile) = .ok d) →
      Gives plan profile disk requests (.error fault)

/-- Decoding one source after the other is among the things workers can come to. -/
theorem Plan.gives_decode (plan : Plan) (profile : Profile) (disk : Disk)
    (requests : List Request) :
    plan.Gives profile disk requests (plan.decode profile disk requests).result := by
  cases hresult : (plan.decode profile disk requests).result with
  | ok decoded => exact .graphs (Plan.decode_eq_ok_iff.mp hresult)
  | error fault =>
    rw [Plan.decode_result] at hresult
    obtain ⟨before, request, after, happend, hbefore, hfault⟩ :=
      Except.mapM_eq_error_iff.mp hresult
    exact .fault happend hfault fun _ => hbefore

/-! ### Loads -/

namespace Loader

/-- The plan by which a loader decodes its sources. -/
def plan (loader : Loader) : Plan := loader.policy.plan loader.sources.length loader.profile

/-- How a loader reads the text of a source. -/
def reader (loader : Loader) : List UInt8 → Except Diagnostic SymbolGraph :=
  loader.plan.read loader.profile

/-- What comes of a load, and the loader afterwards, which keeps the graphs of a load
that succeeds. -/
def keep (loader : Loader) :
    Except LoadFault (Report × List MergedGraph) → Except LoadFault Report × Loader
  | .ok (report, graphs) => (.ok report, { loader with progress := .loaded graphs 0 })
  | .error fault => (.error fault, loader)

/-- The end of a load, once decoding has come to something. -/
def finish (loader : Loader) (requests : List Request)
    (decoding : Except LoadFault (List DecodedGraph)) :
    Except LoadFault (Report × List MergedGraph) := do
  let decoded ← decoding
  let merged ←
    (consolidate (decoded.map DecodedGraph.unique) loader.assumptions).result.mapError .merge
  return loadReport loader.plan requests decoded merged

/-- What a load can come to, whichever source its workers fail for, and the loader
afterwards. -/
inductive Gives (loader : Loader) (disk : Disk) : Except LoadFault Report × Loader → Prop
  | unnamed {fault : NameFault} :
      loader.sources.mapM Source.request = .error fault →
        Gives loader disk (loader.keep (.error (.name fault)))
  | named {requests : List Request} {decoding : Except LoadFault (List DecodedGraph)} :
      loader.sources.mapM Source.request = .ok requests →
      loader.plan.Gives loader.profile disk requests decoding →
      Gives loader disk (loader.keep (loader.finish requests decoding))

variable {loader : Loader} {disk : Disk}

/-- A loader that has not loaded anything keeps the graphs of its sources. -/
theorem load_of_pending (h : loader.progress = .pending) (disk : Disk) :
    ((loader.load disk).1.result, (loader.load disk).2) =
      loader.keep
        (loadGraphs disk loader.assumptions loader.profile loader.policy
          loader.sources).result := by
  simp only [load, h]
  cases (loadGraphs disk loader.assumptions loader.profile loader.policy
    loader.sources).result <;> rfl

/-- A load comes to one of the things it can come to. -/
theorem gives_load (h : loader.progress = .pending) (disk : Disk) :
    loader.Gives disk ((loader.load disk).1.result, (loader.load disk).2) := by
  rw [load_of_pending h, loadGraphs_result]
  cases hrequests : loader.sources.mapM Source.request with
  | error fault => exact .unnamed hrequests
  | ok requests =>
    have hplan : loader.policy.plan requests.length loader.profile = loader.plan := by
      rw [plan, (Except.mapM_eq_ok_iff.mp hrequests).length_eq]
    have hdecode := Plan.gives_decode loader.plan loader.profile disk requests
    rw [Plan.decode_result] at hdecode
    have hnamed := Gives.named hrequests hdecode
    rw [finish, ← hplan] at hnamed
    exact hnamed

/-- Whether an outcome of a load, with the loader afterwards, respects the stages. -/
structure Staged (loader : Loader) (disk : Disk) (outcome : Except LoadFault Report × Loader) :
    Prop where
  /-- The first path that does not end in a name of a symbol graph file is reported,
  whatever is in the files. -/
  naming : ∀ before source after fault, loader.sources = before ++ source :: after →
    (∀ other ∈ before, ∃ name, GraphName.ofPath other.path = .ok name) →
    GraphName.ofPath source.path = .error fault → outcome.1 = .error (.name fault)
  /-- If there is no such path, but a source that cannot be decoded, then such a source is
  reported, and in batches it is the first one. -/
  decoding : (∀ source ∈ loader.sources, ∃ name, GraphName.ofPath source.path = .ok name) →
    (∃ source ∈ loader.sources, ¬ source.Decodes disk loader.reader) →
    ∃ before source after cause, loader.sources = before ++ source :: after ∧
      source.Undecodable disk loader.reader cause ∧
      outcome.1 = .error (.decode source.path cause) ∧
      (loader.plan = .batchedSymbols → ∀ other ∈ before, other.Decodes disk loader.reader)
  /-- If all sources can be decoded, the load comes to what consolidation of their
  graphs comes to. -/
  merging : (∀ source ∈ loader.sources, source.Decodes disk loader.reader) →
    ∃ decoded, List.Forall₂ (fun source d => source.DecodesTo disk loader.reader d)
      loader.sources decoded ∧
      (∀ fault, outcome.1 = .error fault ↔
        ∃ cause, (consolidate (decoded.map DecodedGraph.unique) loader.assumptions).result =
          .error cause ∧
          fault = .merge cause) ∧
      (∀ report, outcome.1 = .ok report ↔
        ∃ merged, (consolidate (decoded.map DecodedGraph.unique) loader.assumptions).result =
          .ok merged ∧
          report = ⟨loader.plan, loader.sources.length, merged.1.length,
            collapsedIn (decoded.map DecodedGraph.unique), merged.2⟩ ∧
          outcome.2.graphs = merged.1)
  /-- A load that fails leaves no graphs behind. -/
  failure : ∀ {fault}, outcome.1 = .error fault →
    outcome.2 = loader ∧ outcome.2.graphs = [] ∧ outcome.2.next = (none, outcome.2)

/-! ### The stages -/

section Stages

variable {requests : List Request}

/-- All paths end in names if all sources are accepted. -/
theorem named_of_mapM (h : loader.sources.mapM Source.request = .ok requests) :
    ∀ source ∈ loader.sources, ∃ name, GraphName.ofPath source.path = .ok name := by
  intro source hsource
  obtain ⟨request, hrequest⟩ := Except.exists_mapM_eq_ok_iff.mp ⟨requests, h⟩ source hsource
  exact ⟨request.name, (Source.request_eq_ok_iff.mp hrequest).1⟩

/-- Some path ends in none if some source is not accepted. -/
theorem not_named_of_mapM {fault : NameFault}
    (h : loader.sources.mapM Source.request = .error fault) :
    ¬ ∀ source ∈ loader.sources, ∃ name, GraphName.ofPath source.path = .ok name := by
  intro named
  obtain ⟨before, source, after, happend, -, hfault⟩ := Except.mapM_eq_error_iff.mp h
  obtain ⟨name, hname⟩ := named source (happend ▸ List.mem_append_right _ List.mem_cons_self)
  rw [Source.request_eq_error_iff.mp hfault] at hname
  cases hname

/-- The requests for some sources are decoded if the sources are. -/
theorem decodes_of_mapM (h : loader.sources.mapM Source.request = .ok requests)
    {request : Request} (hmem : request ∈ requests) :
    request.source.Decodes disk loader.reader ↔
      ∃ d, request.decodeBy disk loader.reader = .ok d :=
  Source.decodes_iff ((Source.map_source_of_mapM h).2 request hmem)

/-- If some source cannot be decoded, workers come to the fault of such a source. -/
theorem fault_of_not_decodes (h : loader.sources.mapM Source.request = .ok requests)
    {decoding : Except LoadFault (List DecodedGraph)}
    (hdecoding : loader.plan.Gives loader.profile disk requests decoding)
    (undecodable : ∃ source ∈ loader.sources, ¬ source.Decodes disk loader.reader) :
    ∃ before source after cause, loader.sources = before ++ source :: after ∧
      source.Undecodable disk loader.reader cause ∧
      decoding = .error (.decode source.path cause) ∧
      (loader.plan = .batchedSymbols →
        ∀ other ∈ before, other.Decodes disk loader.reader) := by
  obtain ⟨hsources, haccepted⟩ := Source.map_source_of_mapM h
  cases hdecoding with
  | graphs hgraphs =>
    obtain ⟨source, hsource, hnot⟩ := undecodable
    obtain ⟨request, hrequest, rfl⟩ := List.mem_map.mp (hsources ▸ hsource)
    exact absurd ((decodes_of_mapM h hrequest).mpr
      (Except.exists_mapM_eq_ok_iff.mp ⟨_, Except.mapM_eq_ok_iff.mpr hgraphs⟩ request
        hrequest)) hnot
  | @fault before after request fault happend hfault hfirst =>
    have hmem : request ∈ requests := happend ▸ List.mem_append_right _ List.mem_cons_self
    obtain ⟨cause, rfl, hcause⟩ := Request.cause_of_decodeBy hfault
    refine ⟨before.map Request.source, request.source, after.map Request.source, cause, ?_,
      ⟨request, haccepted request hmem, hcause⟩, rfl, fun batched other hother => ?_⟩
    · rw [← hsources, happend, List.map_append, List.map_cons]
    · obtain ⟨r, hr, rfl⟩ := List.mem_map.mp hother
      exact (decodes_of_mapM h (happend ▸ List.mem_append_left _ hr)).mpr (hfirst batched r hr)

/-- If all sources can be decoded, workers come to the graphs of all of them. -/
theorem graphs_of_decodes (h : loader.sources.mapM Source.request = .ok requests)
    {decoding : Except LoadFault (List DecodedGraph)}
    (hdecoding : loader.plan.Gives loader.profile disk requests decoding)
    (decodes : ∀ source ∈ loader.sources, source.Decodes disk loader.reader) :
    ∃ decoded, decoding = .ok decoded ∧
      List.Forall₂ (fun source d => source.DecodesTo disk loader.reader d) loader.sources
        decoded := by
  obtain ⟨hsources, haccepted⟩ := Source.map_source_of_mapM h
  cases hdecoding with
  | @graphs decoded hgraphs =>
    refine ⟨decoded, rfl, ?_⟩
    rw [← hsources, List.forall₂_map_left_iff]
    exact ((List.forall₂_and_left requests decoded).mpr ⟨haccepted, hgraphs⟩).imp
      fun request _ hd => ⟨request, hd⟩
  | @fault before after request fault happend hfault hfirst =>
    have hmem : request ∈ requests := happend ▸ List.mem_append_right _ List.mem_cons_self
    obtain ⟨d, hd⟩ :=
      (decodes_of_mapM h hmem).mp (decodes _ (hsources ▸ List.mem_map_of_mem hmem))
    rw [reader, hfault] at hd
    cases hd

/-- A source that is decoded has a name. -/
theorem named_of_decodes (h : ∀ source ∈ loader.sources, source.Decodes disk loader.reader) :
    ∀ source ∈ loader.sources, ∃ name, GraphName.ofPath source.path = .ok name := by
  intro source hsource
  obtain ⟨request, -, hrequest, -⟩ := h source hsource
  exact ⟨request.name, (Source.request_eq_ok_iff.mp hrequest).1⟩

/-- A load that fails leaves the loader as it was. -/
theorem keep_failure (h : loader.progress = .pending)
    {outcome : Except LoadFault (Report × List MergedGraph)} {fault : LoadFault}
    (hfault : (loader.keep outcome).1 = .error fault) :
    (loader.keep outcome).2 = loader ∧ (loader.keep outcome).2.graphs = [] ∧
      (loader.keep outcome).2.next = (none, (loader.keep outcome).2) := by
  cases outcome with
  | ok r => cases hfault
  | error e => exact ⟨rfl, by simp only [keep, graphs, h], by simp only [keep, next, h]⟩

/-- A load that names are missing for respects the stages. -/
theorem staged_of_unnamed (h : loader.progress = .pending) {fault : NameFault}
    (hfault : loader.sources.mapM Source.request = .error fault) :
    loader.Staged disk (loader.keep (.error (.name fault))) where
  naming := by
    intro before source after fault' happend hbefore hfault'
    have hfirst : loader.sources.mapM Source.request = .error fault' := by
      refine Except.mapM_eq_error_iff.mpr
        ⟨before, source, after, happend, fun other hother => ?_,
          Source.request_eq_error_iff.mpr hfault'⟩
      obtain ⟨name, hname⟩ := hbefore other hother
      exact ⟨⟨other, name⟩, Source.request_eq_ok_iff.mpr ⟨hname, rfl⟩⟩
    rw [hfault, Except.error.injEq] at hfirst
    rw [hfirst]
    rfl
  decoding := fun named _ => absurd named (not_named_of_mapM hfault)
  merging := fun decodes => absurd (named_of_decodes decodes) (not_named_of_mapM hfault)
  failure := keep_failure h

/-- A load that all names are there for respects the stages. -/
theorem staged_of_named (h : loader.progress = .pending)
    (hrequests : loader.sources.mapM Source.request = .ok requests)
    {decoding : Except LoadFault (List DecodedGraph)}
    (hdecoding : loader.plan.Gives loader.profile disk requests decoding) :
    loader.Staged disk (loader.keep (loader.finish requests decoding)) where
  naming := by
    intro before source after fault happend _ hfault
    obtain ⟨name, hname⟩ := named_of_mapM hrequests source
      (happend ▸ List.mem_append_right _ List.mem_cons_self)
    rw [hfault] at hname
    cases hname
  decoding := by
    intro _ undecodable
    obtain ⟨before, source, after, cause, happend, hcause, rfl, hfirst⟩ :=
      fault_of_not_decodes hrequests hdecoding undecodable
    exact ⟨before, source, after, cause, happend, hcause, rfl, hfirst⟩
  merging := by
    intro decodes
    obtain ⟨decoded, rfl, hdecoded⟩ := graphs_of_decodes hrequests hdecoding decodes
    refine ⟨decoded, hdecoded, ?_⟩
    rw [finish, Except.ok_bind]
    cases (consolidate (decoded.map DecodedGraph.unique) loader.assumptions).result with
    | error cause =>
      refine ⟨fun fault => ?_,
        fun report => iff_of_false (by rintro ⟨⟩) (by rintro ⟨merged, ⟨⟩, -⟩)⟩
      simp only [Except.error.injEq, exists_eq_left']
      exact ⟨fun hfault => (Except.error.inj hfault).symm,
        fun hfault => congrArg Except.error hfault.symm⟩
    | ok merged =>
      refine ⟨fun fault => iff_of_false (by rintro ⟨⟩) (by rintro ⟨cause, ⟨⟩, -⟩),
        fun report => ?_⟩
      have hlength : requests.length = loader.sources.length :=
        (Except.mapM_eq_ok_iff.mp hrequests).length_eq.symm
      simp only [Except.ok.injEq, exists_eq_left', ← hlength]
      exact ⟨fun hreport => ⟨(Except.ok.inj hreport).symm, rfl⟩,
        fun hreport => congrArg Except.ok hreport.1.symm⟩
  failure := keep_failure h

end Stages

/-- **The stages of a load.** A loader that has not loaded anything reports the first path
that has no name of a symbol graph file; if there is none, a source that cannot be decoded,
and in batches the first one; if there is none either, it comes to what consolidation comes
to. If it fails it has no graphs. All this holds whichever source the workers fail for. -/
theorem load_staged (h : loader.progress = .pending) (disk : Disk) :
    loader.Staged disk ((loader.load disk).1.result, (loader.load disk).2) ∧
      ∀ outcome, loader.Gives disk outcome → loader.Staged disk outcome := by
  have hstaged : ∀ outcome, loader.Gives disk outcome → loader.Staged disk outcome := by
    intro outcome hgives
    cases hgives with
    | unnamed hfault => exact staged_of_unnamed h hfault
    | named hrequests hdecoding => exact staged_of_named h hrequests hdecoding
  exact ⟨hstaged _ (gives_load h disk), hstaged⟩

/-- Sources with faults of all kinds: two graphs that cannot be merged, a text that is no
graph, a file that is not there, and a path that has no name of a symbol graph file. -/
def faultySources : List Source :=
  disjointSources ++ [⟨.ofText "c/M.symbols.json", some (Text.bytes "7")⟩,
    ⟨.ofText "d/M.symbols.json", none⟩, ⟨.ofText "notes.txt", none⟩]

/-- A loader of the first of these sources. -/
def ofFaulty (count : Nat) : Loader :=
  ⟨faultySources.take count, Settings.usual.assumptions, ⟨false, 1, 1⟩,
    .fixed .batchedSymbols, .pending⟩

/-- The path without a name is reported before all other faults, then the text that is no
graph, before the file that is not there, and then that the graphs cannot be merged. -/
theorem load_staged_faulty :
    (∃ fault, ((ofFaulty 5).load ⟨.emptyDirectory, []⟩).1.result = .error (.name fault)) ∧
      (∃ cause, ((ofFaulty 4).load ⟨.emptyDirectory, []⟩).1.result =
        .error (.decode (.ofText "c/M.symbols.json") cause)) ∧
      (∃ cause, ((ofFaulty 2).load ⟨.emptyDirectory, []⟩).1.result =
        .error (.merge cause)) := by
  have named :
      ∀ source ∈ faultySources.take 4, ∃ name, GraphName.ofPath source.path = .ok name := by
    have hnamed :
        ∀ source ∈ faultySources.take 4, (GraphName.ofPath source.path).toBool = true := by
      decide +kernel
    exact fun source hsource => Except.toBool_eq_true_iff.mp (hnamed source hsource)
  have decodes : ∀ source ∈ faultySources.take 2,
      source.Decodes ⟨.emptyDirectory, []⟩ (ofFaulty 4).reader := by
    decide +kernel
  have malformed : ¬ (⟨.ofText "c/M.symbols.json", some (Text.bytes "7")⟩ : Source).Decodes
      ⟨.emptyDirectory, []⟩ (ofFaulty 4).reader := by
    decide +kernel
  refine ⟨?_, ?_, ?_⟩
  · have hunnamed : (GraphName.ofPath (.ofText "notes.txt")).toBool = false := by
      decide +kernel
    cases hname : GraphName.ofPath (.ofText "notes.txt") with
    | ok name =>
      rw [hname] at hunnamed
      cases hunnamed
    | error fault =>
      exact ⟨fault, (@load_staged (ofFaulty 5) rfl ⟨.emptyDirectory, []⟩).1.naming _ _ [] fault
        (List.take_append_drop 4 faultySources).symm named hname⟩
  · obtain ⟨before, source, after, cause, happend, hcause, hresult, hfirst⟩ :=
      (@load_staged (ofFaulty 4) rfl ⟨.emptyDirectory, []⟩).1.decoding named
        ⟨_, List.mem_cons_of_mem _ (List.mem_cons_of_mem _ List.mem_cons_self), malformed⟩
    -- The two sources before it can be decoded, and none after it has only such
    -- sources before it.
    obtain _ | ⟨a, _ | ⟨b, _ | ⟨c, before⟩⟩⟩ := before
    · obtain ⟨rfl, -⟩ := List.cons.inj happend
      exact absurd (decodes _ List.mem_cons_self) hcause.not_decodes
    · obtain ⟨-, happend⟩ := List.cons.inj happend
      obtain ⟨rfl, -⟩ := List.cons.inj happend
      exact absurd (decodes _ (List.mem_cons_of_mem _ List.mem_cons_self)) hcause.not_decodes
    · obtain ⟨-, happend⟩ := List.cons.inj happend
      obtain ⟨-, happend⟩ := List.cons.inj happend
      obtain ⟨rfl, -⟩ := List.cons.inj happend
      exact ⟨cause, hresult⟩
    · obtain ⟨-, happend⟩ := List.cons.inj happend
      obtain ⟨-, happend⟩ := List.cons.inj happend
      obtain ⟨rfl, -⟩ := List.cons.inj happend
      refine absurd (hfirst rfl _ ?_) malformed
      exact List.mem_cons_of_mem _ (List.mem_cons_of_mem _ List.mem_cons_self)
  · obtain ⟨decoded, -, herror, hok⟩ :=
      (@load_staged (ofFaulty 2) rfl ⟨.emptyDirectory, []⟩).1.merging decodes
    have hfails : ((ofFaulty 2).load ⟨.emptyDirectory, []⟩).1.result.toBool = false := by
      decide +kernel
    cases hresult : ((ofFaulty 2).load ⟨.emptyDirectory, []⟩).1.result with
    | ok report =>
      rw [hresult] at hfails
      cases hfails
    | error fault =>
      obtain ⟨cause, -, rfl⟩ := (herror fault).mp hresult
      exact ⟨cause, rfl⟩

end Loader

end ApiSurface
