import ApiSurface.Proofs.Results
import ApiSurface.Session.Loader
import Mathlib.Data.List.Induction

/-!
# Runs of a loader

A loader is used by calls in any order, while the disk it reads from changes. Whatever
happens, it is in one of two states. Until a load has succeeded it is the loader that was
started, so a load that fails leaves no trace. From then on it keeps the graphs of that
load, and all that changes is how many of them have been handed out: as many as were asked
for since the load or the last rewind, but no more than there are.

## Main definitions

* `Call`, `Session.call`: what can happen, and what comes of it; `Session.after`: a run.
* `Session.Unloaded`, `Session.Loaded`: how a session answers before and after its load.

## Main results

* `Session.loader_call_of_pending`, `Session.progress_call_of_loaded`: what a call preserves.
* `Session.loader_after_of_pending`, `Session.progress_after`: what a run preserves.
* `Session.after_start`: how a session answers after any run.
-/

namespace ApiSurface

/-! ### Sessions -/

/-- Something that happens to a loader, or to the disk it reads from. -/
inductive Call
  | load
  | next
  | rewind
  | graphs
  | isLoaded
  /-- The disk changes in some way. -/
  | change (edit : Disk → Disk)

/-- What a call gives. -/
inductive Answer
  | outcome (outcome : Traced LoadFault Report)
  /-- A graph, and whether its symbols are those of a module itself. -/
  | graph (graph : Option (MergedGraph × Bool))
  | graphs (graphs : List MergedGraph)
  | truth (holds : Bool)
  | done

namespace Call

/-- A file is written, unless that is refused. -/
def write (path : Path) (contents : List UInt8) : Call :=
  .change fun disk => (disk.write path contents).toOption.getD disk

/-- A file is removed, unless that is refused. -/
def remove (path : Path) : Call := .change fun disk => (disk.remove path).toOption.getD disk

/-- How many graphs have been asked for since the last rewind, after one more call. -/
def count (asked : Nat) : Call → Nat
  | .next => asked + 1
  | .rewind => 0
  | _ => asked

end Call

/-- How many graphs have been asked for in some calls since the last rewind. -/
def asked (calls : List Call) : Nat := calls.foldl Call.count 0

/-- A loader in use, and the disk as it is now. -/
structure Session where
  loader : Loader
  disk : Disk

namespace Session

/-- What a call gives, and the session afterwards. -/
def call (session : Session) : Call → Answer × Session
  | .load =>
    let (outcome, loader) := session.loader.load session.disk
    (.outcome outcome, { session with loader })
  | .next =>
    let (graph, loader) := session.loader.next
    (.graph (graph.map fun graph => (graph, graph.isMain)), { session with loader })
  | .rewind => (.done, { session with loader := session.loader.rewind })
  | .graphs => (.graphs session.loader.graphs, session)
  | .isLoaded => (.truth session.loader.isLoaded, session)
  | .change edit => (.done, { session with disk := edit session.disk })

/-- The session after some calls. -/
def after (session : Session) (calls : List Call) : Session :=
  calls.foldl (fun session c => (session.call c).2) session

/-- Whether a load succeeds now. -/
def Loads (session : Session) : Prop :=
  ∃ report, (session.loader.load session.disk).1.result = .ok report

/-- Whether a load that comes after some calls, and before others, succeeds. -/
structure LoadsIn (session : Session) (calls before since : List Call) : Prop where
  split : calls = before ++ .load :: since
  loads : (session.after before).Loads

/-- How a session answers that has not loaded anything, if its loader was started as given. -/
structure Unloaded (fresh : Loader) (session : Session) : Prop where
  isLoaded : session.call .isLoaded = (.truth false, session)
  next : session.call .next = (.graph none, session)
  graphs : session.call .graphs = (.graphs [], session)
  rewind : session.call .rewind = (.done, session)
  /-- A load gives what it gives to a loader that has just been started. -/
  load : (session.call .load).1 = .outcome (fresh.load session.disk).1
  /-- A load that fails changes nothing. -/
  failed : ∀ fault, (fresh.load session.disk).1.result = .error fault →
    (session.call .load).2 = session

/-- How a session answers that has loaded some graphs, of which so many have been asked for. -/
structure Loaded (graphs : List MergedGraph) (asked : Nat) (session : Session) : Prop where
  isLoaded : session.call .isLoaded = (.truth true, session)
  /-- The graph in turn is handed out, if there is one. -/
  next : (session.call .next).1 =
    .graph (graphs[asked]?.map fun graph => (graph, graph.isMain))
  graphs : session.call .graphs = (.graphs graphs, session)
  /-- Another load fails, and changes nothing. -/
  load : session.call .load = (.outcome (throw .alreadyLoaded), session)

variable {session : Session}

theorem after_append (calls calls' : List Call) :
    session.after (calls ++ calls') = (session.after calls).after calls' :=
  List.foldl_append

theorem after_concat (calls : List Call) (c : Call) :
    session.after (calls ++ [c]) = ((session.after calls).call c).2 :=
  after_append calls [c]

theorem after_load (before since : List Call) :
    session.after (before ++ .load :: since) =
      ((session.after before).call .load).2.after since :=
  after_append before (.load :: since)

/-! ### One call -/

/-- Until something has been loaded, only a load that succeeds changes the loader. -/
theorem loader_call_of_pending (h : session.loader.progress = .pending) (c : Call) :
    (session.call c).2.loader = session.loader ∨ c = .load ∧ session.Loads := by
  cases c with
  | load =>
    by_cases hloads : session.Loads
    · exact .inr ⟨rfl, hloads⟩
    · left
      simp only [Loads, call, Loader.load, h] at hloads ⊢
      cases hresult :
        (loadGraphs session.disk session.loader.assumptions session.loader.profile
          session.loader.policy session.loader.sources).result with
      | error fault => rfl
      | ok r => exact absurd ⟨r.1, by rw [hresult]⟩ hloads
  | next => exact .inl (by simp only [call, Loader.next, h])
  | rewind => exact .inl (by simp only [call, Loader.rewind, h])
  | graphs | isLoaded | change => exact .inl rfl

/-- A load that succeeds gives the loader its graphs, none of them handed out. -/
theorem progress_call_load (h : session.Loads) :
    (session.call .load).2.loader.progress =
      .loaded (session.loader.load session.disk).2.graphs 0 := by
  obtain ⟨report, hreport⟩ := h
  show (session.loader.load session.disk).2.progress = _
  simp only [Loader.load] at hreport ⊢
  cases hprogress : session.loader.progress with
  | loaded graphs handedOut =>
    rw [hprogress] at hreport
    cases hreport
  | pending =>
    simp only [hprogress] at hreport ⊢
    cases hresult : (loadGraphs session.disk session.loader.assumptions session.loader.profile
        session.loader.policy session.loader.sources).result with
    | error fault =>
      rw [hresult] at hreport
      cases hreport
    | ok r => rfl

/-- Once graphs have been loaded they stay, and no more are handed out than have been asked
for, and than there are. -/
theorem progress_call_of_loaded {graphs : List MergedGraph} {asked : Nat}
    (h : session.loader.progress = .loaded graphs (min asked graphs.length)) (c : Call) :
    (session.call c).2.loader.progress =
      .loaded graphs (min (c.count asked) graphs.length) := by
  cases c with
  | next =>
    by_cases hasked : asked < graphs.length
    · rw [Nat.min_eq_left (Nat.le_of_lt hasked)] at h
      simp only [call, Loader.next, h, List.getElem?_eq_getElem hasked, Call.count]
      rw [Nat.min_eq_left hasked]
    · rw [Nat.not_lt] at hasked
      rw [Nat.min_eq_right hasked] at h
      simp only [call, Loader.next, h, List.getElem?_eq_none (Nat.le_refl _), Call.count]
      rw [Nat.min_eq_right (Nat.le_succ_of_le hasked)]
  | rewind => simp only [call, Loader.rewind, h, Call.count, Nat.zero_min]
  | load => simp only [call, Loader.load, h, Call.count]
  | graphs | isLoaded | change => exact h

/-! ### Runs -/

/-- A run preserves the graphs that have been loaded, and counts how many of them
were asked for. -/
theorem progress_after {graphs : List MergedGraph}
    (h : session.loader.progress = .loaded graphs 0) (calls : List Call) :
    (session.after calls).loader.progress =
      .loaded graphs (min (asked calls) graphs.length) := by
  induction calls using List.reverseRecOn with
  | nil => rw [show asked [] = 0 from rfl, Nat.zero_min]; exact h
  | append_singleton calls c ih =>
    rw [after_concat, asked, List.foldl_append]
    exact progress_call_of_loaded ih c

/-- After a run without a load that succeeds, the loader is the one from before. -/
theorem loader_after_of_pending (h : session.loader.progress = .pending) {calls : List Call}
    (fails : ∀ before since, ¬ session.LoadsIn calls before since) :
    (session.after calls).loader = session.loader := by
  induction calls using List.reverseRecOn with
  | nil => rfl
  | append_singleton calls c ih =>
    have hloader : (session.after calls).loader = session.loader := by
      refine ih fun before since hloads => fails before (since ++ [c]) ⟨?_, hloads.loads⟩
      rw [hloads.split, List.append_assoc, List.cons_append]
    rw [after_concat, ← hloader]
    rcases loader_call_of_pending (hloader ▸ h) c with hsame | ⟨rfl, hloads⟩
    · exact hsame
    · exact absurd ⟨rfl, hloads⟩ (fails calls [])

/-- The graphs of a load that succeeds stay for the rest of the run. -/
theorem LoadsIn.progress_after {calls before since : List Call}
    (h : session.LoadsIn calls before since) :
    (session.after calls).loader.progress =
      .loaded ((session.after before).loader.load (session.after before).disk).2.graphs
        (min (asked since)
          ((session.after before).loader.load
            (session.after before).disk).2.graphs.length) := by
  rw [h.split, after_load]
  exact Session.progress_after (progress_call_load h.loads) since

/-- No load succeeds once graphs have been loaded. -/
theorem not_loads_of_loaded {graphs : List MergedGraph} {handedOut : Nat}
    (h : session.loader.progress = .loaded graphs handedOut) : ¬ session.Loads := by
  rintro ⟨report, hreport⟩
  simp only [Loader.load, h] at hreport
  cases hreport

/-- A load that succeeds has no other before it. -/
theorem LoadsIn.not_loadsIn_before {calls before since : List Call}
    (h : session.LoadsIn calls before since) (before' since' : List Call) :
    ¬ session.LoadsIn before before' since' :=
  fun h' => not_loads_of_loaded h'.progress_after h.loads

/-- At most one load of a run succeeds. -/
theorem LoadsIn.unique {calls before since before' since' : List Call}
    (h : session.LoadsIn calls before since) (h' : session.LoadsIn calls before' since') :
    before = before' := by
  have hsplit : before ++ .load :: since = before' ++ .load :: since' :=
    h.split.symm.trans h'.split
  rcases List.append_eq_append_iff.mp hsplit with ⟨mid, rfl, hmid⟩ | ⟨mid, rfl, hmid⟩
  · cases mid with
    | nil => rw [List.append_nil]
    | cons c mid =>
      obtain ⟨rfl, -⟩ := List.cons.inj hmid
      exact absurd ⟨rfl, h.loads⟩ (h'.not_loadsIn_before before mid)
  · cases mid with
    | nil => rw [List.append_nil]
    | cons c mid =>
      obtain ⟨rfl, -⟩ := List.cons.inj hmid
      exact absurd ⟨rfl, h'.loads⟩ (h.not_loadsIn_before before' mid)

/-! ### Answers -/

/-- A session whose loader has not loaded anything. -/
theorem unloaded_of_pending (h : session.loader.progress = .pending) :
    Unloaded session.loader session := by
  constructor
  case isLoaded => simp only [call, Loader.isLoaded, h]
  case next => simp only [call, Loader.next, h, Option.map_none]
  case graphs => simp only [call, Loader.graphs, h]
  case rewind => simp only [call, Loader.rewind, h]
  case load => rfl
  case failed =>
    intro fault hfault
    rcases loader_call_of_pending h .load with hsame | ⟨-, report, hreport⟩
    · exact congrArg (Session.mk · session.disk) hsame
    · rw [hfault] at hreport
      cases hreport

/-- A session whose loader has loaded graphs. -/
theorem loaded_of_progress {graphs : List MergedGraph} {asked : Nat}
    (h : session.loader.progress = .loaded graphs (min asked graphs.length)) :
    Loaded graphs asked session := by
  constructor
  case isLoaded => simp only [call, Loader.isLoaded, h]
  case graphs => simp only [call, Loader.graphs, h]
  case next =>
    have hturn : graphs[min asked graphs.length]? = graphs[asked]? := by
      by_cases hasked : asked < graphs.length
      · rw [Nat.min_eq_left (Nat.le_of_lt hasked)]
      · rw [Nat.not_lt] at hasked
        rw [Nat.min_eq_right hasked, List.getElem?_eq_none (Nat.le_refl _),
          List.getElem?_eq_none hasked]
    simp only [call, Loader.next, h, hturn]
    cases graphs[asked]? <;> rfl
  case load => simp only [call, Loader.load, h]

/-- **Runs of a loader.** After any calls and any changes of the disk, a loader on which no
load has succeeded answers as if it had just been started. If a load has succeeded, it
answers by the graphs which that load gave on the disk as it was then, and hands out the one
whose turn it is since the load or the last rewind. No two loads succeed. -/
theorem after_start (host : Profile) (settings : Settings) (policy : Policy)
    (sources : List Source) (disk : Disk) (calls : List Call) :
    let fresh := Loader.start host settings policy sources
    let start : Session := ⟨fresh, disk⟩
    ((∀ before since, ¬ start.LoadsIn calls before since) →
      Unloaded fresh (start.after calls)) ∧
      (∀ before since, start.LoadsIn calls before since →
        Loaded (fresh.load (start.after before).disk).2.graphs (asked since)
          (start.after calls)) ∧
      ∀ before since before' since', start.LoadsIn calls before since →
        start.LoadsIn calls before' since' → before = before' := by
  intro fresh start
  refine ⟨fun fails => ?_, fun before since hloads => ?_, fun _ _ _ _ h h' => h.unique h'⟩
  · have hloader : (start.after calls).loader = fresh := loader_after_of_pending rfl fails
    have hpending : (start.after calls).loader.progress = .pending := by rw [hloader]; rfl
    exact hloader ▸ unloaded_of_pending hpending
  · have hloader : (start.after before).loader = fresh :=
      loader_after_of_pending rfl hloads.not_loadsIn_before
    exact hloader ▸ loaded_of_progress hloads.progress_after

end Session

/-! ### A run -/

/-- A loader for a file that is not there yet. -/
def absentFileLoader : Loader :=
  .start ⟨true, 1, 1⟩ .usual .byFileCount [⟨.ofText "M.symbols.json", none⟩]

/-- A load before the file is written, and one after that. -/
def callsToLoad : List Call :=
  [.load, .write (.ofText "M.symbols.json") (Text.bytes "[[[1],\"g\"],[\"M\"]]"), .load]

/-- All graphs are asked for and one more, after the file has been removed. -/
def callsAfterLoad : List Call := [.remove (.ofText "M.symbols.json"), .load, .next, .next]

/-- A session on an empty disk answers as it should before the load, at the end of the
graphs, and after a rewind. -/
theorem Session.after_start_absentFile :
    let start : Session := ⟨absentFileLoader, ⟨.emptyDirectory, []⟩⟩
    let graphs := (absentFileLoader.load (start.after (callsToLoad.take 2)).disk).2.graphs
    graphs.length = 1 ∧ Unloaded absentFileLoader (start.after (callsToLoad.take 2)) ∧
      Loaded graphs 2 (start.after (callsToLoad ++ callsAfterLoad)) ∧
      Loaded graphs 0 (start.after (callsToLoad ++ (callsAfterLoad ++ [.rewind]))) := by
  intro start graphs
  have hfails : ¬ start.Loads := by
    rw [Loads, ← Except.toBool_eq_true_iff]
    decide +kernel
  have hloads : (start.after (callsToLoad.take 2)).Loads := by
    rw [Loads, ← Except.toBool_eq_true_iff]
    decide +kernel
  have hrun (calls : List Call) :=
    after_start ⟨true, 1, 1⟩ .usual .byFileCount [⟨.ofText "M.symbols.json", none⟩]
      ⟨.emptyDirectory, []⟩ calls
  refine ⟨by decide +kernel, (hrun _).1 fun before since hin => ?_, ?_, ?_⟩
  · obtain ⟨hsplit, hin⟩ := hin
    rcases before with _ | ⟨c, _ | ⟨c', before⟩⟩
    · exact hfails hin
    · simp [callsToLoad, Call.write] at hsplit
    · simp [callsToLoad] at hsplit
  · exact (hrun _).2.1 _ callsAfterLoad ⟨rfl, hloads⟩
  · exact (hrun _).2.1 _ (callsAfterLoad ++ [.rewind]) ⟨rfl, hloads⟩

end ApiSurface
