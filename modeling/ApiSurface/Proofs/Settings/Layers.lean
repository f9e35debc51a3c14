import ApiSurface.Proofs.Reading.Graphs
import ApiSurface.Proofs.Settings.Overrides
import ApiSurface.Session.Configure

/-!
# Settings in layers

The settings of a load come in three layers: what is usual, a file that may have some of the
settings, and the variables of the environment. Of each setting the highest layer that has
it decides. A source that cannot be used is not passed over: the file has to be there and to
decode as a whole, each variable that is given has to spell a value, and otherwise the first
source at fault is reported.

## Main definitions

* `Settings.AreGivenBy`, `Settings.AreOverridden`: the layer of the file, and that
  of the variables.
* `Settings.AreLayered`: settings of which each one is decided by the
  highest layer that has it.
* `SettingsSource`: the file and the variables; `SettingsSource.IsValid`,
  `SettingsSource.Reports`: whether a source can be used, and what is reported of it if not.
* `Layering`: what reading settings can come to.

## Main results

* `Settings.areGivenBy_of_decode`: what a file gives for each setting.
* `SettingsSource.Reports.not_isValid`, `SettingsSource.ReportsFirst.eq`: a source is
  reported only if it cannot be used, and there is one first source to report.
* `layering_settingsFrom`: reading settings comes to one of these things.
* `settingsFrom_obeysLayers`: settings are there exactly if all sources can be used, are
  then decided in layers, and otherwise the first source at fault is reported.
-/

namespace ApiSurface

open Json Wire

/-! ### The file -/

/-- The node that a record has for a field: the one under its key in an object, or the one
in its place in an array. -/
def Json.Node.field? (place : Nat) (key : String) : Node → Option Node
  | .array _ items => (items.nodes?.getD [])[place]?
  | .object _ members => (under key (members.entries?.getD [])).head?
  | _ => none

/-- Whether a setting is what a file has for it, or the usual one if the file has none. -/
def GivenBy {α : Type} (shape : Shape α) (usual : α) : Option Node → α → Prop
  | some node, a => shape.decode .unbounded node = .ok a
  | none, a => a = usual

/-- What the nodes of a field give is what the first of them spells. -/
theorem givenBy_of_gives {α : Type} {shape : Shape α} {depth : Depth} (h : depth.Admits 0)
    {usual a : α} {nodes : List Node} (hgives : Gives (shape.decode depth) usual nodes a) :
    GivenBy shape usual nodes.head? a := by
  rcases hgives with ⟨rfl, rfl⟩ | ⟨node, rfl, hnode⟩
  · rfl
  · exact ((shape.decode_iff_unbounded h node a).mp hnode).1

/-- Whether settings are those that a file gives, with the usual ones for those that it
does not have. -/
structure Settings.AreGivenBy (file : Option Node) (settings : Settings) : Prop where
  preference : GivenBy Preference.shape .auto (file.bind (Node.field? 0 "strategy"))
    settings.preference
  workers : GivenBy .word64 0 (file.bind (Node.field? 1 "worker_threads")) settings.workers
  batchSize : GivenBy .word64 usualBatchSize (file.bind (Node.field? 2 "symbol_batch_size"))
    settings.batchSize
  assumptions :
    GivenBy Assumptions.shape .empty (file.bind (Node.field? 3 "default_availability"))
    settings.assumptions

/-- A file that decodes gives each setting that it has a field for. -/
theorem Settings.areGivenBy_of_decode {node : Node} {settings : Settings}
    (h : Settings.shape.decode .ofText node = .ok settings) :
    settings.AreGivenBy (some node) := by
  obtain ⟨start, inner, values, henter, rfl, hnode⟩ := Shape.decode_record_iff.mp h
  have hadmits := Depth.admits_zero_of_enter henter
  obtain ⟨members, entries, left, rfl, hentries, hreads, -⟩ |
    ⟨items, nodes, rfl, hnodes, hreads⟩ := hnode
  · obtain ⟨hpreference, hworkers, hbatchSize, hassumptions, -⟩ := hreads
    rw [under_besides (by decide)] at hworkers
    rw [under_besides (by decide), under_besides (by decide)] at hbatchSize
    rw [under_besides (by decide), under_besides (by decide),
      under_besides (by decide)] at hassumptions
    constructor
    all_goals
      rw [Option.bind_some, Node.field?, hentries, Option.getD_some]
      exact givenBy_of_gives hadmits ‹_›
  · obtain ⟨hpreference, hworkers, hbatchSize, hassumptions, -⟩ := hreads
    simp only [List.drop_drop] at hworkers hbatchSize hassumptions
    have hfield (place : Nat) : ((nodes.drop place).take 1).head? = nodes[place]? := by
      rw [List.head?_take, if_neg Nat.one_ne_zero, List.head?_drop]
    constructor
    all_goals
      rw [Option.bind_some, Node.field?, hnodes, Option.getD_some, ← hfield]
      exact givenBy_of_gives hadmits ‹_›

/-- Without a file the settings are the usual ones. -/
theorem Settings.areGivenBy_usual : Settings.usual.AreGivenBy none := ⟨rfl, rfl, rfl, rfl⟩

/-- The tree that a file has, if there is a file and it can be read. -/
def Disk.tree? (disk : Disk) (path : Option Path) : Option Node :=
  path.bind fun path => (disk.read path).toOption.map fun text => (Document.ofBytes text).root

/-- The settings of the file, or the usual ones if there is to be none. -/
def fileSettings (disk : Disk) : Option Path → Except Failure Settings
  | some path => (readSettings disk path).result
  | none => .ok .usual

/-- A file gives settings if it can be read and decodes. -/
theorem fileSettings_some (disk : Disk) (p : Path) : fileSettings disk (some p) =
    (disk.read p).mapError .file >>= fun text =>
      (Settings.shape.ofBytes text).mapError fun diagnostic =>
          .settings (.malformed p diagnostic) := by
  simp only [fileSettings, readSettings, Traced.result_bind, Traced.result_ofExcept,
    Traced.result_note, Traced.result_pure, Except.ok_bind, Except.bind_ok]

/-- The settings of a file that can be used are those that it gives. -/
theorem areGivenBy_of_fileSettings {disk : Disk} {path : Option Path} {given : Settings}
    (h : fileSettings disk path = .ok given) : given.AreGivenBy (disk.tree? path) := by
  cases path with
  | none =>
    cases h
    exact Settings.areGivenBy_usual
  | some p =>
    rw [fileSettings_some, Except.bind_eq_ok_iff] at h
    obtain ⟨text, hread, hdecode⟩ := h
    rw [Except.mapError_eq_ok_iff] at hread hdecode
    rw [Disk.tree?, Option.bind_some, hread]
    exact Settings.areGivenBy_of_decode (ofBytes_eq_ok_iff.mp hdecode).1

/-! ### Layers -/

/-- Whether settings are earlier ones with what the variables override. -/
structure Settings.AreOverridden (lookup : Lookup) (before after : Settings) : Prop where
  preference : lookup.Overrides preferenceVariable SpellsPreference before.preference
    after.preference
  workers : lookup.Overrides workersVariable SpellsWorkers before.workers after.workers
  batchSize : lookup.Overrides batchSizeVariable SpellsBatchSize before.batchSize
    after.batchSize
  /-- There is no variable for what is assumed. -/
  assumptions : after.assumptions = before.assumptions

/-- Whether each setting is decided by the highest layer that has it. -/
def Settings.AreLayered (file : Option Node) (lookup : Lookup) (settings : Settings) : Prop :=
  ∃ given : Settings, given.AreGivenBy file ∧ given.AreOverridden lookup settings

/-! ### Sources -/

/-- A source of settings. -/
inductive SettingsSource
  | file
  | preference
  | workers
  | batchSize

namespace SettingsSource

variable {disk : Disk} {path : Option Path} {lookup : Lookup} {source earlier : SettingsSource}
  {failure failure' : Failure}

/-- The place of a source in the order in which they are looked at. -/
def place : SettingsSource → Nat
  | file => 0
  | preference => 1
  | workers => 2
  | batchSize => 3

/-- Whether a source can be used: the file is there and decodes, if there is to be one, and
a variable spells a value, if it is given. -/
def IsValid (disk : Disk) (path : Option Path) (lookup : Lookup) : SettingsSource → Prop
  | file => ∀ p, path = some p →
      ∃ text settings, disk.read p = .ok text ∧ Settings.shape.ofBytes text = .ok settings
  | preference =>
    ∀ value, lookup.given preferenceVariable = some value → ∃ a, SpellsPreference value a
  | workers => ∀ value, lookup.given workersVariable = some value → ∃ n, SpellsWorkers value n
  | batchSize =>
    ∀ value, lookup.given batchSizeVariable = some value → ∃ n, SpellsBatchSize value n

/-- What is reported of a source that cannot be used. -/
inductive Reports (disk : Disk) (path : Option Path) (lookup : Lookup) :
    SettingsSource → Failure → Prop
  | unread {p : Path} {fault : FileFault} :
      path = some p → disk.read p = .error fault → Reports disk path lookup file (.file fault)
  | malformed {p : Path} {text : List UInt8} {diagnostic : Diagnostic} :
      path = some p → disk.read p = .ok text →
      Settings.shape.ofBytes text = .error diagnostic →
      Reports disk path lookup file (.settings (.malformed p diagnostic))
  | preference {fault : OverrideFault} :
      lookup.Refused preferenceVariable readPreference fault →
      Reports disk path lookup preference (.settings (.override fault))
  | workers {fault : OverrideFault} : lookup.Refused workersVariable readWorkers fault →
      Reports disk path lookup workers (.settings (.override fault))
  | batchSize {fault : OverrideFault} : lookup.Refused batchSizeVariable readBatchSize fault →
      Reports disk path lookup batchSize (.settings (.override fault))

/-- The file can be used exactly if it gives settings. -/
theorem isValid_file_iff :
    file.IsValid disk path lookup ↔ ∃ given, fileSettings disk path = .ok given := by
  cases path with
  | none => exact iff_of_true nofun ⟨.usual, rfl⟩
  | some p =>
    simp only [IsValid, fileSettings_some, Except.bind_eq_ok_iff, Except.mapError_eq_ok_iff,
      Option.some.injEq, forall_eq']
    constructor
    · rintro ⟨text, settings, hread, hdecode⟩
      exact ⟨settings, text, hread, hdecode⟩
    · rintro ⟨settings, text, hread, hdecode⟩
      exact ⟨text, settings, hread, hdecode⟩

/-- What is reported of the file is why it gives no settings. -/
theorem reports_file_iff :
    Reports disk path lookup file failure ↔ fileSettings disk path = .error failure := by
  constructor
  · intro h
    cases h with
    | unread hpath hread =>
      rw [hpath, fileSettings_some, hread]
      rfl
    | malformed hpath hread hdecode =>
      rw [hpath, fileSettings_some, hread]
      exact Except.mapError_eq_error_iff.mpr ⟨_, hdecode, rfl⟩
  · intro h
    cases path with
    | none => cases h
    | some p =>
      rw [fileSettings_some, Except.bind_eq_error_iff] at h
      obtain hread | ⟨text, hread, hdecode⟩ := h
      · obtain ⟨fault, hfault, rfl⟩ := Except.mapError_eq_error_iff.mp hread
        exact .unread rfl hfault
      · obtain ⟨diagnostic, hdiagnostic, rfl⟩ := Except.mapError_eq_error_iff.mp hdecode
        exact .malformed rfl (Except.mapError_eq_ok_iff.mp hread) hdiagnostic

/-- Nothing is reported of a source that can be used. -/
theorem Reports.not_isValid (h : Reports disk path lookup source failure) :
    ¬ source.IsValid disk path lookup := by
  intro hvalid
  cases source with
  | file =>
    obtain ⟨given, hgiven⟩ := isValid_file_iff.mp hvalid
    cases (reports_file_iff.mp h).symm.trans hgiven
  | preference =>
    cases h with
    | preference hrefused =>
      obtain ⟨value, hgiven, hspells⟩ := hrefused.not_spells readPreference_eq_ok_iff
      exact hspells (hvalid value hgiven)
  | workers =>
    cases h with
    | workers hrefused =>
      obtain ⟨value, hgiven, hspells⟩ := hrefused.not_spells readWorkers_eq_ok_iff
      exact hspells (hvalid value hgiven)
  | batchSize =>
    cases h with
    | batchSize hrefused =>
      obtain ⟨value, hgiven, hspells⟩ := hrefused.not_spells readBatchSize_eq_ok_iff
      exact hspells (hvalid value hgiven)

/-- What is reported of a source is determined. -/
theorem Reports.eq (h : Reports disk path lookup source failure)
    (h' : Reports disk path lookup source failure') : failure = failure' := by
  cases source with
  | file =>
    exact Except.error.inj ((reports_file_iff.mp h).symm.trans (reports_file_iff.mp h'))
  | preference =>
    cases h with
    | preference hrefused => cases h' with
      | preference hrefused' => rw [hrefused.eq hrefused']
  | workers =>
    cases h with
    | workers hrefused => cases h' with
      | workers hrefused' => rw [hrefused.eq hrefused']
  | batchSize =>
    cases h with
    | batchSize hrefused => cases h' with
      | batchSize hrefused' => rw [hrefused.eq hrefused']

/-- Sources with the same place are the same. -/
theorem eq_of_place_eq (h : source.place = earlier.place) : source = earlier := by
  cases source <;> cases earlier <;> first | rfl | cases h

/-- Whether something is reported of a source and all sources before it can be used. -/
def ReportsFirst (disk : Disk) (path : Option Path) (lookup : Lookup) (source : SettingsSource)
    (failure : Failure) : Prop :=
  Reports disk path lookup source failure ∧ ∀ earlier : SettingsSource,
    earlier.place < source.place → earlier.IsValid disk path lookup

/-- There is one first source at fault, and one failure to report of it. -/
theorem ReportsFirst.eq {source' : SettingsSource}
    (h : ReportsFirst disk path lookup source failure)
    (h' : ReportsFirst disk path lookup source' failure') : failure = failure' := by
  obtain hlt | heq | hgt := Nat.lt_trichotomy source.place source'.place
  · exact absurd (h'.2 source hlt) h.1.not_isValid
  · cases eq_of_place_eq heq
    exact h.1.eq h'.1
  · exact absurd (h.2 source' hgt) h'.1.not_isValid

end SettingsSource

/-! ### Reading settings -/

/-- What reading settings can come to: the first source at fault is reported, or all sources
can be used and the settings are decided in layers. -/
inductive Layering (disk : Disk) (path : Option Path) (lookup : Lookup) :
    Except Failure Settings → Prop
  | stopped {source : SettingsSource} {failure : Failure} :
      SettingsSource.ReportsFirst disk path lookup source failure →
        Layering disk path lookup (.error failure)
  | done {settings : Settings} : (∀ source : SettingsSource, source.IsValid disk path lookup) →
      settings.AreLayered (disk.tree? path) lookup → Layering disk path lookup (.ok settings)

section

variable {disk : Disk} {path : Option Path} {lookup : Lookup} {given settings : Settings}
  {failure : Failure}

/-- The result of reading settings is that of reading the file and overriding what it gives. -/
theorem result_settingsFrom :
    (settingsFrom disk path lookup).result = fileSettings disk path >>= fun given =>
    match given.override lookup with
    | (none, settings) => .ok settings
    | (some fault, _) => .error (.settings (.override fault)) := by
  cases path
  all_goals
    simp only [settingsFrom, Traced.result_bind, Traced.result_pure, fileSettings]
    congr 1
    funext given
    cases given.override lookup with
    | mk fault settings => cases fault <;> rfl

/-- Reading settings comes to one of these things. -/
theorem layering_settingsFrom (disk : Disk) (path : Option Path) (lookup : Lookup) :
    Layering disk path lookup (settingsFrom disk path lookup).result := by
  rw [result_settingsFrom]
  cases hfile : fileSettings disk path with
  | error failure => exact .stopped ⟨SettingsSource.reports_file_iff.mpr hfile, nofun⟩
  | ok given =>
    have hvalid : SettingsSource.file.IsValid disk path lookup :=
      SettingsSource.isValid_file_iff.mpr ⟨given, hfile⟩
    have hgiven : given.AreGivenBy (disk.tree? path) := areGivenBy_of_fileSettings hfile
    rw [Except.ok_bind]
    have hoverriding := overriding_override lookup given
    generalize given.override lookup = outcome at hoverriding
    -- The sources before the one at fault are those that have overridden their
    -- settings by then.
    cases hoverriding with
    | preference hrefused =>
      refine .stopped ⟨.preference hrefused, ?_⟩
      rintro (_ | _ | _ | _) hearlier
      · exact hvalid
      all_goals exact absurd hearlier (by decide)
    | workers hpreference hrefused =>
      refine .stopped ⟨.workers hrefused, ?_⟩
      rintro (_ | _ | _ | _) hearlier
      · exact hvalid
      · exact hpreference.exists_spells
      all_goals exact absurd hearlier (by decide)
    | batchSize hpreference hworkers hrefused =>
      refine .stopped ⟨.batchSize hrefused, ?_⟩
      rintro (_ | _ | _ | _) hearlier
      · exact hvalid
      · exact hpreference.exists_spells
      · exact hworkers.exists_spells
      · exact absurd hearlier (by decide)
    | done hpreference hworkers hbatchSize =>
      refine .done ?_ ⟨given, hgiven, hpreference, hworkers, hbatchSize, rfl⟩
      rintro (_ | _ | _ | _)
      · exact hvalid
      · exact hpreference.exists_spells
      · exact hworkers.exists_spells
      · exact hbatchSize.exists_spells

end

/-- Whether settings that are read obey the layers. -/
structure ObeysLayers (disk : Disk) (path : Option Path) (lookup : Lookup)
    (result : Except Failure Settings) : Prop where
  /-- There are settings exactly if all sources can be used. -/
  ok_iff : (∃ settings, result = .ok settings) ↔
    ∀ source : SettingsSource, source.IsValid disk path lookup
  /-- The settings are decided in layers. -/
  layered : ∀ settings, result = .ok settings → settings.AreLayered (disk.tree? path) lookup
  /-- The failure is the one to report of the first source at fault. -/
  error_iff : ∀ failure, result = .error failure ↔
    ∃ source, SettingsSource.ReportsFirst disk path lookup source failure

/-- **Layered settings.** There are settings exactly if all sources can be used, and each
setting is then decided by the highest layer that has it. Otherwise the first source at
fault is reported. -/
theorem settingsFrom_obeysLayers (disk : Disk) (path : Option Path) (lookup : Lookup) :
    ObeysLayers disk path lookup (settingsFrom disk path lookup).result := by
  have hlayering := layering_settingsFrom disk path lookup
  generalize (settingsFrom disk path lookup).result = result at hlayering
  cases hlayering with
  | stopped hfirst =>
    refine ⟨?_, nofun, fun failure => ?_⟩
    · exact iff_of_false nofun fun hvalid => hfirst.1.not_isValid (hvalid _)
    · refine ⟨fun h => ?_, fun ⟨source, hfirst'⟩ => ?_⟩
      · cases h
        exact ⟨_, hfirst⟩
      · rw [hfirst.eq hfirst']
  | done hvalid hlayered =>
    refine ⟨iff_of_true ⟨_, rfl⟩ hvalid, fun settings h => ?_, fun failure => ?_⟩
    · cases h
      exact hlayered
    · exact iff_of_false nofun fun ⟨source, hfirst⟩ => hfirst.1.not_isValid (hvalid source)

end ApiSurface
