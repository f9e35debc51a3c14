import ApiSurface.Model.Availability
import ApiSurface.Text.Words

/-!
# Settings

The settings of a load: how to decode, and which availability to assume for symbols that do
not state one. Whoever configures the library may prefer one of the two ways of decoding or
leave the choice to the library.

## Main definitions

* `Preference`, `AssumedAvailability`, `Settings`, with their shapes.
* `Preference.ofText`: reading a preference that a person typed.
* `AssumedAvailability.item`: the statement that is assumed.
-/

namespace ApiSurface

open Wire

/-! ### Preferred ways of decoding -/

/-- A preference for a way of decoding. -/
inductive Preference
  /-- None: the number of files and the host decide. -/
  | auto
  | batched
  | parallel
  deriving DecidableEq

namespace Preference

/-- The preferences by name. -/
def byName : List (String × Preference) :=
  [("auto", auto), ("batched", batched), ("parallel", parallel)]

/-- The name of a preference. -/
def name : Preference → String
  | auto => "auto"
  | batched => "batched"
  | parallel => "parallel"

/-- How a preference is written. -/
def shape : Shape Preference := .choice byName name (by intro p; cases p <;> decide)

end Preference

/-- A name, blanks removed and capitals made small, that is none of a preference. -/
structure UnknownPreference where
  given : String
  deriving DecidableEq

/-- The wording for an unknown name. -/
def UnknownPreference.message (fault : UnknownPreference) : String :=
  "unknown decode strategy `" ++ fault.given ++ "` (expected auto, batched or parallel)"

/-- The preference that a name stands for. Blanks around it and capitals make no difference. -/
def Preference.ofText (s : String) : Except UnknownPreference Preference :=
  let given := Text.lowerAscii (Text.trim s)
  match byName.lookup given with
  | some preference => .ok preference
  | none => .error ⟨given⟩

/-! ### Assumed availability -/

/-- An availability to assume for a domain. -/
structure AssumedAvailability where
  domain : String
  introduced : Version
  deriving DecidableEq

namespace AssumedAvailability

/-- How an assumed availability is written. -/
def shape : Shape AssumedAvailability :=
  .record "DefaultAvailability" (.required "domain" .text <|
    .required "introduced" Version.shape .done)
    (fun (domain, introduced, ()) => ⟨domain, introduced⟩)
    (fun a => (a.domain, a.introduced, ()))
    (fun _ => rfl)

/-- The statement that is assumed. -/
def item (a : AssumedAvailability) : AvailabilityItem := .ofIntroduced a.domain a.introduced

end AssumedAvailability

/-- What is assumed, by the module that symbols were authored in. -/
abbrev Assumptions := Table String (List AssumedAvailability)

/-- How assumptions are written. -/
def Assumptions.shape : Shape Assumptions := .table (.list AssumedAvailability.shape)

/-- The settings of a load. -/
structure Settings where
  preference : Preference
  /-- How many workers decode; zero leaves their number to the host. -/
  workers : UInt64
  /-- How many symbols are decoded at once. -/
  batchSize : UInt64
  assumptions : Assumptions

namespace Settings

/-- The number of symbols that are decoded at once unless something else is set. -/
def usualBatchSize : UInt64 := 256

/-- The settings if nothing is set. -/
def usual : Settings := ⟨.auto, 0, usualBatchSize, .empty⟩

/-- How settings are written. -/
def shape : Shape Settings :=
  .record "IngestConfig"
    (.defaulted "strategy" Preference.shape .auto <| .defaulted "worker_threads" .word64 0 <|
      .defaulted "symbol_batch_size" .word64 usualBatchSize <|
      .defaulted "default_availability" Assumptions.shape .empty .done)
    (fun (preference, workers, batchSize, assumptions, ()) =>
      ⟨preference, workers, batchSize, assumptions⟩)
    (fun s => (s.preference, s.workers, s.batchSize, s.assumptions, ()))
    (fun _ => rfl)

end Settings

end ApiSurface
