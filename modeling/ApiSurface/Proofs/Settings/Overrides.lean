import ApiSurface.Proofs.Settings.Spellings

/-!
# Overriding settings

The three variables are taken one after the other, and each one that is given, that is set
and not blank, either overrides its setting or is refused. A refusal ends it: what the
variables before have overridden stays overridden, and all other settings are as they were.
So a refusal leaves the settings alone only if no variable before the refused one has
changed anything.

## Main definitions

* `Lookup.Overrides`, `Lookup.Refused`: what a variable does to its
  setting, and why it is refused.
* `Overriding`: what overriding can come to.
* `PartlyOverridden`: the settings after a refusal.

## Main results

* `overriding_override`: overriding comes to one of these things.
* `Settings.partlyOverridden_of_fault`: the settings after a refusal, for every environment.
* `Settings.not_override_unchanged`: they need not be those before.
-/

namespace ApiSurface

/-! ### Variables -/

namespace Lookup

variable {lookup : Lookup} {variableName value : String} {α : Type}

/-- What a variable does to a setting: it gives what it spells if it is given, and leaves
the setting alone otherwise. -/
def Overrides (lookup : Lookup) (variableName : String) (spells : String → α → Prop)
    (before after : α) : Prop :=
  match lookup.given variableName with
  | some value => spells value after
  | none => after = before

/-- Why a variable is refused that is given. -/
def Refused (lookup : Lookup) (variableName : String) (read : String → Except OverrideFault α)
    (fault : OverrideFault) : Prop :=
  ∃ value, lookup.given variableName = some value ∧ read value = .error fault

/-- Takes what a variable gives for a setting. -/
def take (lookup : Lookup) (variableName : String) (read : String → Except OverrideFault α)
    (before : α) : Except OverrideFault α :=
  match lookup.given variableName with
  | some value => read value
  | none => .ok before

variable {read : String → Except OverrideFault α} {spells : String → α → Prop}
  {before after : α} {fault : OverrideFault}

/-- A variable overrides a setting by what it spells. -/
theorem overrides_of_take (reads : ∀ value a, read value = .ok a ↔ spells value a)
    (h : lookup.take variableName read before = .ok after) :
    lookup.Overrides variableName spells before after := by
  rw [take] at h
  rw [Overrides]
  cases hgiven : lookup.given variableName with
  | none =>
    rw [hgiven] at h
    exact (Except.ok.inj h).symm
  | some value =>
    rw [hgiven] at h
    exact (reads value after).mp h

/-- A variable that cannot be read is refused. -/
theorem refused_of_take (h : lookup.take variableName read before = .error fault) :
    lookup.Refused variableName read fault := by
  rw [take] at h
  cases hgiven : lookup.given variableName with
  | none =>
    rw [hgiven] at h
    cases h
  | some value =>
    rw [hgiven] at h
    exact ⟨value, hgiven, h⟩

/-- A variable that is refused spells nothing. -/
theorem Refused.not_spells (h : lookup.Refused variableName read fault)
    (reads : ∀ value a, read value = .ok a ↔ spells value a) :
    ∃ value, lookup.given variableName = some value ∧ ¬ ∃ a, spells value a := by
  obtain ⟨value, hgiven, hread⟩ := h
  refine ⟨value, hgiven, fun ⟨a, ha⟩ => ?_⟩
  cases hread.symm.trans ((reads value a).mpr ha)

/-- A variable is refused for one fault only. -/
theorem Refused.eq {fault' : OverrideFault} (h : lookup.Refused variableName read fault)
    (h' : lookup.Refused variableName read fault') : fault = fault' := by
  obtain ⟨value, hgiven, hread⟩ := h
  obtain ⟨value', hgiven', hread'⟩ := h'
  cases hgiven.symm.trans hgiven'
  cases hread.symm.trans hread'
  rfl

/-- A variable that overrides a setting spells something, if it is given. -/
theorem Overrides.exists_spells (h : lookup.Overrides variableName spells before after) :
    ∀ value, lookup.given variableName = some value → ∃ a, spells value a := by
  intro value hgiven
  rw [Overrides, hgiven] at h
  exact ⟨after, h⟩

end Lookup

/-! ### The three variables -/

/-- Reads the variable for the way of decoding. -/
def readPreference (value : String) : Except OverrideFault Preference :=
  (Preference.ofText value).mapError .preference

/-- Reads the variable for the number of workers. -/
def readWorkers (value : String) : Except OverrideFault UInt64 :=
  (parseCount value).mapError (.count workersVariable value)

/-- Reads the variable for the number of symbols that are decoded at once. -/
def readBatchSize (value : String) : Except OverrideFault UInt64 := do
  let batchSize ← (parseCount value).mapError (.count batchSizeVariable value)
  if batchSize = 0 then .error .emptyBatch else .ok batchSize

/-- Whether a text spells a number of workers. -/
def SpellsWorkers (value : String) (workers : UInt64) : Prop := SpellsCount value workers.toNat

/-- Whether a text spells a number of symbols that can be decoded at once. -/
def SpellsBatchSize (value : String) (batchSize : UInt64) : Prop :=
  SpellsCount value batchSize.toNat ∧ batchSize ≠ 0

theorem readPreference_eq_ok_iff (value : String) (preference : Preference) :
    readPreference value = .ok preference ↔ SpellsPreference value preference := by
  rw [readPreference, Except.mapError_eq_ok_iff, Preference.ofText_eq_ok_iff]

theorem readWorkers_eq_ok_iff (value : String) (workers : UInt64) :
    readWorkers value = .ok workers ↔ SpellsWorkers value workers := by
  rw [readWorkers, Except.mapError_eq_ok_iff, parseCount_eq_ok_iff, SpellsWorkers]

theorem readBatchSize_eq_ok_iff (value : String) (batchSize : UInt64) :
    readBatchSize value = .ok batchSize ↔ SpellsBatchSize value batchSize := by
  rw [readBatchSize, SpellsBatchSize, ← parseCount_eq_ok_iff, Except.bind_eq_ok_iff]
  constructor
  · rintro ⟨n, hn, h⟩
    split at h
    · cases h
    · next hne =>
      cases h
      exact ⟨Except.mapError_eq_ok_iff.mp hn, hne⟩
  · rintro ⟨hn, hne⟩
    exact ⟨batchSize, Except.mapError_eq_ok_iff.mpr hn, if_neg hne⟩

namespace Settings

variable {lookup : Lookup} {settings : Settings}

theorem overridePreference_eq_take : overridePreference lookup settings =
    (lookup.take preferenceVariable readPreference settings.preference).map fun preference =>
      { settings with preference } := by
  rw [overridePreference, Lookup.take]
  cases lookup.given preferenceVariable with
  | none => rfl
  | some value =>
    dsimp only [readPreference]
    cases Preference.ofText value <;> rfl

theorem overrideWorkers_eq_take : overrideWorkers lookup settings =
    (lookup.take workersVariable readWorkers settings.workers).map fun workers =>
      { settings with workers } := by
  rw [overrideWorkers, Lookup.take]
  cases lookup.given workersVariable with
  | none => rfl
  | some value =>
    dsimp only [readWorkers]
    cases parseCount value <;> rfl

theorem overrideBatchSize_eq_take : overrideBatchSize lookup settings =
    (lookup.take batchSizeVariable readBatchSize settings.batchSize).map fun batchSize =>
      { settings with batchSize } := by
  rw [overrideBatchSize, Lookup.take]
  cases lookup.given batchSizeVariable with
  | none => rfl
  | some value =>
    dsimp only [readBatchSize]
    cases parseCount value with
    | error fault => rfl
    | ok n =>
      rw [show (Except.ok n : Except CountFault UInt64).mapError _ = .ok n from rfl,
        Except.ok_bind]
      dsimp only
      split <;> rfl

end Settings

/-! ### Overriding -/

/-- What overriding can come to: all variables override their settings, or one is refused
after those before it have overridden theirs. -/
inductive Overriding (lookup : Lookup) (settings : Settings) :
    Option OverrideFault × Settings → Prop
  | preference {fault : OverrideFault} :
      lookup.Refused preferenceVariable readPreference fault →
        Overriding lookup settings (some fault, settings)
  | workers {fault : OverrideFault} {preference : Preference} :
      lookup.Overrides preferenceVariable SpellsPreference settings.preference preference →
      lookup.Refused workersVariable readWorkers fault →
      Overriding lookup settings (some fault, { settings with preference })
  | batchSize {fault : OverrideFault} {preference : Preference} {workers : UInt64} :
      lookup.Overrides preferenceVariable SpellsPreference settings.preference preference →
      lookup.Overrides workersVariable SpellsWorkers settings.workers workers →
      lookup.Refused batchSizeVariable readBatchSize fault →
      Overriding lookup settings (some fault, { settings with preference, workers })
  | done {preference : Preference} {workers batchSize : UInt64} :
      lookup.Overrides preferenceVariable SpellsPreference settings.preference preference →
      lookup.Overrides workersVariable SpellsWorkers settings.workers workers →
      lookup.Overrides batchSizeVariable SpellsBatchSize settings.batchSize batchSize →
      Overriding lookup settings (none, { settings with preference, workers, batchSize })

/-- Overriding comes to one of these things. -/
theorem overriding_override (lookup : Lookup) (settings : Settings) :
    Overriding lookup settings (settings.override lookup) := by
  rw [Settings.override, Settings.takeSteps, Settings.overridePreference_eq_take]
  cases hpreference : lookup.take preferenceVariable readPreference settings.preference with
  | error fault => exact .preference (Lookup.refused_of_take hpreference)
  | ok preference =>
    have hpreference' := Lookup.overrides_of_take readPreference_eq_ok_iff hpreference
    dsimp only [Except.map]
    rw [Settings.takeSteps, Settings.overrideWorkers_eq_take]
    cases hworkers : lookup.take workersVariable readWorkers settings.workers with
    | error fault => exact .workers hpreference' (Lookup.refused_of_take hworkers)
    | ok workers =>
      have hworkers' := Lookup.overrides_of_take readWorkers_eq_ok_iff hworkers
      dsimp only [Except.map]
      rw [Settings.takeSteps, Settings.overrideBatchSize_eq_take]
      cases hbatchSize : lookup.take batchSizeVariable readBatchSize settings.batchSize with
      | error fault =>
        exact .batchSize hpreference' hworkers' (Lookup.refused_of_take hbatchSize)
      | ok batchSize =>
        exact .done hpreference' hworkers'
          (Lookup.overrides_of_take readBatchSize_eq_ok_iff hbatchSize)

/-! ### Settings after a refusal -/

/-- The variable that a fault is found in. -/
def OverrideFault.variableName : OverrideFault → String
  | .preference _ => preferenceVariable
  | .count variableName _ _ => variableName
  | .emptyBatch => batchSizeVariable

theorem readPreference_fault (value : String) (fault : OverrideFault)
    (h : readPreference value = .error fault) : fault.variableName = preferenceVariable := by
  obtain ⟨unknown, -, rfl⟩ := Except.mapError_eq_error_iff.mp h
  rfl

theorem readWorkers_fault (value : String) (fault : OverrideFault)
    (h : readWorkers value = .error fault) : fault.variableName = workersVariable := by
  obtain ⟨cause, -, rfl⟩ := Except.mapError_eq_error_iff.mp h
  rfl

theorem readBatchSize_fault (value : String) (fault : OverrideFault)
    (h : readBatchSize value = .error fault) : fault.variableName = batchSizeVariable := by
  rcases Except.bind_eq_error_iff.mp h with h | ⟨n, -, h⟩
  · obtain ⟨cause, -, rfl⟩ := Except.mapError_eq_error_iff.mp h
    rfl
  · split at h <;> cases h
    rfl

/-- A variable is refused for a fault that is found in it. -/
theorem Lookup.Refused.variableName_eq {lookup : Lookup} {variableName : String} {α : Type}
    {read : String → Except OverrideFault α} {fault : OverrideFault}
    (h : lookup.Refused variableName read fault)
    (own : ∀ value fault, read value = .error fault → fault.variableName = variableName) :
    fault.variableName = variableName := by
  obtain ⟨value, -, hread⟩ := h
  exact own value fault hread

/-- The settings after a variable has been refused: those of variables before it have been
overridden, and all others are as they were. -/
structure PartlyOverridden (lookup : Lookup) (before : Settings) (refused : String)
    (after : Settings) : Prop where
  /-- One of the variables is refused. -/
  known : refused ∈ [preferenceVariable, workersVariable, batchSizeVariable]
  /-- The first variable is before any other one. -/
  preference : if refused = preferenceVariable then after.preference = before.preference
    else lookup.Overrides preferenceVariable SpellsPreference before.preference
      after.preference
  /-- The second variable is before the last one only. -/
  workers : if refused = batchSizeVariable
    then lookup.Overrides workersVariable SpellsWorkers before.workers after.workers
    else after.workers = before.workers
  /-- The last variable is before none. -/
  batchSize : after.batchSize = before.batchSize
  /-- There is no variable for what is assumed. -/
  assumptions : after.assumptions = before.assumptions

namespace Settings

/-- **Refused variables.** If a variable is refused, the variables before it have overridden
their settings, and all other settings are as they were. -/
theorem partlyOverridden_of_fault {lookup : Lookup} {settings : Settings}
    {fault : OverrideFault} (h : (settings.override lookup).1 = some fault) :
    PartlyOverridden lookup settings fault.variableName (settings.override lookup).2 := by
  have hoverriding := overriding_override lookup settings
  generalize settings.override lookup = outcome at h hoverriding
  cases hoverriding with
  | preference hrefused =>
    cases h
    rw [hrefused.variableName_eq readPreference_fault]
    exact ⟨by decide, rfl, rfl, rfl, rfl⟩
  | workers hpreference hrefused =>
    cases h
    rw [hrefused.variableName_eq readWorkers_fault]
    exact ⟨by decide, hpreference, rfl, rfl, rfl⟩
  | batchSize hpreference hworkers hrefused =>
    cases h
    rw [hrefused.variableName_eq readBatchSize_fault]
    exact ⟨by decide, hpreference, hworkers, rfl, rfl⟩
  | done => cases h

/-- An environment in which the first variable is in order and the second is not. -/
def halfValid : Lookup := fun variableName =>
  if variableName = preferenceVariable then some " Parallel "
  else if variableName = workersVariable then some "-1" else none

/-- The way of decoding is overridden although the number of workers is refused. -/
theorem partlyOverridden_of_fault_halfValid :
    ∃ fault, (usual.override halfValid).1 = some fault ∧
    fault = .count workersVariable "-1" .invalidDigit ∧
    (usual.override halfValid).2.preference = .parallel ∧
    PartlyOverridden halfValid usual fault.variableName (usual.override halfValid).2 := by
  have hfault :
      (usual.override halfValid).1 = some (.count workersVariable "-1" .invalidDigit) := by
    decide +kernel
  exact ⟨_, hfault, rfl, by decide +kernel, partlyOverridden_of_fault hfault⟩

/-- A refusal does not always leave the settings as they were. -/
theorem not_override_unchanged :
    ¬ ∀ (lookup : Lookup) (settings : Settings) (fault : OverrideFault),
      (settings.override lookup).1 = some fault → (settings.override lookup).2 = settings := by
  intro h
  have hfault :
      (usual.override halfValid).1 = some (.count workersVariable "-1" .invalidDigit) := by
    decide +kernel
  have hpreference : (usual.override halfValid).2.preference = .parallel := by decide +kernel
  rw [h halfValid usual _ hfault] at hpreference
  cases hpreference

end Settings

end ApiSurface
