import ApiSurface.Decimal.Digits
import ApiSurface.Reading.Source
import ApiSurface.Settings.Settings

/-!
# Failures

What can go wrong in a load, and in the work around it.

## Main definitions

* `MergeFault`: why graphs cannot be consolidated; `LoadFault`: why a load fails.
* `Lookup`: an environment; `OverrideFault`: what is wrong with a variable of it.
* `Failure`: why an operation of the library fails.
-/

namespace ApiSurface

open Json

/-! ### Loads -/

/-- Why graphs cannot be consolidated. -/
inductive MergeFault
  /-- Two graphs have one path. -/
  | suppliedTwice (path : Path)
  /-- An overlay and its base have symbols, but none in common. -/
  | disjointOverlay (overlay base : Path)
  /-- The availability of a symbol is no list of statements. -/
  | unreadableAvailability (precise : String) (path : Path) (cause : Cause)

/-- The wording for a fault. -/
def MergeFault.message : MergeFault → String
  | .suppliedTwice path => "symbol graph " ++ path.display ++ " was supplied more than once"
  | .disjointOverlay overlay base =>
    "overlay " ++ overlay.display ++ " shares no symbols with " ++ base.display
  | .unreadableAvailability precise path cause =>
    "unreadable availability for " ++ precise ++ " in " ++ path.display ++ ": " ++
      cause.message

/-- Why a load fails. -/
inductive LoadFault
  | name (fault : NameFault)
  | decode (path : Path) (fault : DecodeFault)
  | merge (fault : MergeFault)
  /-- Graphs are loaded at most once. -/
  | alreadyLoaded

/-- The wording for a fault. -/
def LoadFault.message : LoadFault → String
  | .name fault => "unrecognized symbol graph file: " ++ fault.message
  | .decode path fault =>
    "failed to decode symbol graph " ++ path.display ++ ": " ++ fault.message
  | .merge fault => "consolidation failed: " ++ fault.message
  | .alreadyLoaded => "execution failed: symbol graphs already loaded"

/-! ### Variables of the environment -/

/-- An environment: the values of its variables. -/
abbrev Lookup := String → Option String

/-- Names the way of decoding. -/
def preferenceVariable : String := "SYMGRAPH_DECODE_STRATEGY"

/-- Gives the number of workers. -/
def workersVariable : String := "SYMGRAPH_DECODE_THREADS"

/-- Gives the number of symbols that are decoded at once. -/
def batchSizeVariable : String := "SYMGRAPH_SYMBOL_BATCH_SIZE"

/-- What is wrong with a variable. -/
inductive OverrideFault
  | preference (fault : UnknownPreference)
  | count (variableName given : String) (fault : CountFault)
  | emptyBatch
  deriving DecidableEq

/-- The wording for a fault. -/
def OverrideFault.message : OverrideFault → String
  | .preference fault => preferenceVariable ++ ": " ++ fault.message
  | .count variableName given fault => variableName ++ "=" ++ given ++ ": " ++ fault.message
  | .emptyBatch => batchSizeVariable ++ " must be at least 1"

/-! ### Operations -/

/-- Why settings cannot be used. -/
inductive SettingsFault
  | malformed (path : Path) (diagnostic : Diagnostic)
  | override (fault : OverrideFault)

/-- The wording for a fault. -/
def SettingsFault.message : SettingsFault → String
  | .malformed path diagnostic => path.display ++ ": " ++ diagnostic.message
  | .override fault => fault.message

/-- Why an operation fails. -/
inductive Failure
  | file (fault : FileFault)
  | load (fault : LoadFault)
  | settings (fault : SettingsFault)
  /-- A log is kept already. -/
  | alreadyLogging

/-- The wording for a failure. -/
def Failure.message : Failure → String
  | .file fault => "I/O error: " ++ fault.message
  | .load fault => fault.message
  | .settings fault => "Configuration error: " ++ fault.message
  | .alreadyLogging =>
    "Internal error: failed to install logging: " ++
      "a global default trace dispatcher has already been set"

end ApiSurface
