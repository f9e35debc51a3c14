import ApiSurface.Failure
import ApiSurface.Log.Event
import ApiSurface.Text.Words

/-!
# Reading settings

Settings come from a file, if there is one, and from the environment, of which three
variables override the file. A variable that is unset or blank leaves its setting alone.
They are taken in a fixed order, and those before the first invalid one take effect.

## Main definitions

* `parseCount`: the number that a variable holds.
* `Settings.override`: the overrides of an environment.
* `readSettings`: the settings of a file.
* `settingsFrom`: the settings of an optional file and an environment.
* `settingsOrUsual`: the same with a file that is looked for if none is given.
-/

namespace ApiSurface

/-! ### Overrides -/

/-- The number that a text denotes, blanks around it aside. -/
def parseCount (s : String) : Except CountFault UInt64 :=
  (countOf (Text.trim s).toList).map Nat.toUInt64

/-- The value of a variable that is set and not blank. -/
def Lookup.given (lookup : Lookup) (variableName : String) : Option String :=
  (lookup variableName).filter fun value => !Text.isBlankText value

namespace Settings

/-- Overrides the way of decoding. -/
def overridePreference (lookup : Lookup) (settings : Settings) :
    Except OverrideFault Settings :=
  match lookup.given preferenceVariable with
  | none => .ok settings
  | some value =>
    match Preference.ofText value with
    | .ok preference => .ok { settings with preference }
    | .error fault => .error (.preference fault)

/-- Overrides the number of workers. -/
def overrideWorkers (lookup : Lookup) (settings : Settings) : Except OverrideFault Settings :=
  match lookup.given workersVariable with
  | none => .ok settings
  | some value =>
    match parseCount value with
    | .ok workers => .ok { settings with workers }
    | .error fault => .error (.count workersVariable value fault)

/-- Overrides the number of symbols that are decoded at once. -/
def overrideBatchSize (lookup : Lookup) (settings : Settings) :
    Except OverrideFault Settings :=
  match lookup.given batchSizeVariable with
  | none => .ok settings
  | some value =>
    match parseCount value with
    | .ok batchSize =>
      if batchSize = 0 then .error .emptyBatch else .ok { settings with batchSize }
    | .error fault => .error (.count batchSizeVariable value fault)

/-- Takes steps one after the other: the fault of the first one that fails, and the settings
after those before it. -/
def takeSteps (settings : Settings) :
    List (Settings → Except OverrideFault Settings) → Option OverrideFault × Settings
  | [] => (none, settings)
  | step :: steps =>
    match step settings with
    | .ok settings => takeSteps settings steps
    | .error fault => (some fault, settings)

/-- Applies the overrides of an environment: the fault of the first invalid variable, and
the settings after those before it. -/
def override (settings : Settings) (lookup : Lookup) : Option OverrideFault × Settings :=
  settings.takeSteps [overridePreference lookup, overrideWorkers lookup,
    overrideBatchSize lookup]

end Settings

/-! ### Files -/

/-- The settings of a file. -/
def readSettings (disk : Disk) (path : Path) : Traced Failure Settings := do
  let text ← Traced.ofExcept ((disk.read path).mapError .file)
  let settings ← Traced.ofExcept
    ((Settings.shape.ofBytes text).mapError fun fault => .settings (.malformed path fault))
  Traced.note [.settingsRead path]
  return settings

/-- The settings of a file, or the usual ones if there is none, with the overrides of an
environment. -/
def settingsFrom (disk : Disk) (path : Option Path) (lookup : Lookup) :
    Traced Failure Settings := do
  let settings ← match path with
    | some path => readSettings disk path
    | none => pure Settings.usual
  match settings.override lookup with
  | (none, settings) => return settings
  | (some fault, _) => throw (.settings (.override fault))

/-- Where the file with settings is in the directory for the settings of programs. -/
def settingsPath (directory : Path) : Path :=
  (directory.join (.ofText "symgraph")).join (.ofText "config.json")

/-- The settings of a given file, or else of the one in the directory for the settings of
programs if it is there, with the overrides of an environment. -/
def settingsOrUsual (disk : Disk) (path : Option Path) (directory : Option Path)
    (lookup : Lookup) : Traced Failure Settings :=
  settingsFrom disk
    (path.orElse fun _ => (directory.map settingsPath).filter disk.isFile) lookup

end ApiSurface
