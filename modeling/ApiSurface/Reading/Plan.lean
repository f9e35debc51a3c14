import ApiSurface.Settings.Settings

/-!
# Plans for decoding

Files are decoded either one after the other, each in batches of symbols, or all at once.
Which way is taken depends on how many files there are and on what the host does best.

## Main definitions

* `Plan`: a way of decoding.
* `Profile`: what a host does best; `Profile.ofSettings`: the settings applied to it.
* `Policy`: how a plan is chosen; `Policy.plan`.
-/

namespace ApiSurface

/-- A way of decoding files. -/
inductive Plan
  /-- One file after the other, the symbols of each in batches. -/
  | batchedSymbols
  /-- All files at once, each as a whole. -/
  | wholeFiles
  deriving DecidableEq

/-- A plan in words. -/
def Plan.description : Plan → String
  | .batchedSymbols => "per-file batched symbols"
  | .wholeFiles => "whole-file full parallel"

/-- The name under which a plan is written. -/
def Plan.name : Plan → String
  | .batchedSymbols => "PerFileBatchedSymbols"
  | .wholeFiles => "WholeFileFullParallel"

/-- What a host does best. -/
structure Profile where
  /-- Whether it is better to decode many files at once than each in batches. -/
  prefersWholeFiles : Bool
  workers : UInt64
  batchSize : UInt64
  deriving DecidableEq

namespace Profile

/-- The profile of a host with settings applied. -/
def ofSettings (host : Profile) (settings : Settings) : Profile where
  prefersWholeFiles :=
    match settings.preference with
    | .auto => host.prefersWholeFiles
    | .batched => false
    | .parallel => true
  workers := if settings.workers = 0 then host.workers else settings.workers
  batchSize := max settings.batchSize 1

/-- How many workers there are: at least one. -/
def workerCount (profile : Profile) : UInt64 := max profile.workers 1

/-- How many symbols a batch has: at least one. -/
def symbolsPerBatch (profile : Profile) : UInt64 := max profile.batchSize 1

end Profile

/-- How a plan is chosen. -/
inductive Policy
  /-- By the number of files: a single file can only be decoded in batches. -/
  | byFileCount
  /-- Always the same plan. -/
  | fixed (plan : Plan)
  deriving DecidableEq

/-- The plan for a number of files. -/
def Policy.plan (policy : Policy) (fileCount : Nat) (profile : Profile) : Plan :=
  match policy with
  | .byFileCount =>
    if 1 < fileCount && profile.prefersWholeFiles then .wholeFiles else .batchedSymbols
  | .fixed plan => plan

end ApiSurface
