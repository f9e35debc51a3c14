import ApiSurface.Failure
import ApiSurface.Merging.UniqueGraph
import ApiSurface.Settings.Settings

/-!
# Overlays

An overlay is a graph of the same module for another platform. What it adds to a base graph
is the availability of symbols for domains that the base does not mention. Assumed
availability is added in the same way, to every symbol.

## Main definitions

* `Symbol.extendAvailability`: adding statements to one symbol.
* `applyOverlay`: adding those of an overlay.
* `applyAssumed`: adding those that are assumed.
-/

namespace ApiSurface

/-- The availability of a symbol of the graph with the given path. -/
def Symbol.readAvailability (symbol : Symbol) (path : Path) :
    Except MergeFault (Option Availability) :=
  symbol.availability.mapError (.unreadableAvailability symbol.precise path)

/-- Adds the statements about domains that a symbol does not mention yet: the symbol, and
how many statements were added. A symbol that nothing is added to stays as it is. -/
def Symbol.extendAvailability (symbol : Symbol) (path : Path) (offered : Availability) :
    Except MergeFault (Symbol × Nat) := do
  let current := (← symbol.readAvailability path).getD []
  let count := Availability.missingCount current offered
  if count = 0 then return (symbol, 0)
  return (symbol.setMixin Availability.mixin
    (Availability.extendMissing current offered), count)

/-! ### Overlays -/

/-- Symbols that an overlay is being applied to. -/
structure Overlaid where
  symbols : Table String Symbol
  /-- How many symbols of the overlay are among them. -/
  matched : Nat
  /-- How many symbols of the overlay are not. -/
  unmatched : Nat
  /-- How many statements were added. -/
  added : Nat

/-- Adds the availability of one symbol of an overlay. If the base does not have the symbol,
it is ignored. -/
def applySymbol (base overlay : Path) (state : Overlaid) (entry : String × Symbol) :
    Except MergeFault Overlaid := do
  let some symbol := state.symbols.get? entry.1
    | return { state with unmatched := state.unmatched + 1 }
  let state := { state with matched := state.matched + 1 }
  let some offered ← entry.2.readAvailability overlay | return state
  let (extended, count) ← symbol.extendAvailability base offered
  return { state with
    symbols := state.symbols.insert entry.1 extended
    added := state.added + count }

/-- Adds the availability of the symbols of an overlay. If neither graph is without symbols,
they must have one in common. -/
def applyOverlay (base : Path) (symbols : Table String Symbol) (overlay : UniqueGraph) :
    Except MergeFault Overlaid := do
  let overlaid ← overlay.symbols.entries.foldlM (applySymbol base overlay.path)
    ⟨symbols, 0, 0, 0⟩
  if overlaid.matched = 0 && overlay.symbols.size != 0 && symbols.size != 0 then
    throw (.disjointOverlay overlay.path base)
  return overlaid

/-- What is logged about an overlay that has been applied. -/
def Overlaid.events (overlaid : Overlaid) (base overlay : Path) : List Event :=
  (if overlaid.unmatched = 0 then [] else [.symbolsIgnored overlaid.unmatched overlay base]) ++
    [.availabilityMerged overlaid.added overlay base]

/-! ### Assumed availability -/

/-- Adds statements to one symbol of a table, and their number to a count. -/
def assumeFor (base : Path) (offered : Availability) (state : Table String Symbol × Nat)
    (entry : String × Symbol) : Except MergeFault (Table String Symbol × Nat) := do
  let (extended, count) ← entry.2.extendAvailability base offered
  return (state.1.insert entry.1 extended, state.2 + count)

/-- Adds assumed statements to all symbols: the symbols, and how many statements were added.
If nothing is assumed, no availability is read. -/
def applyAssumed (base : Path) (symbols : Table String Symbol)
    (assumed : List AssumedAvailability) : Except MergeFault (Table String Symbol × Nat) :=
  if assumed.isEmpty then .ok (symbols, 0)
  else symbols.entries.foldlM (assumeFor base (assumed.map AssumedAvailability.item))
    (symbols, 0)

end ApiSurface
