import ApiSurface.Log.Event
import ApiSurface.Reading.Source

/-!
# Graphs with unique symbols

Several entries of a graph may have one identifier: a declaration with a completion handler,
say, and its `async` form. Of these one is kept: one without `async` before one with it, and
among those the one whose JSON text comes first. So it does not matter in which order the
entries were written.

## Main definitions

* `Symbol.isPreferredTo`: which of two symbols with one identifier is kept.
* `UniqueGraph`: a graph whose symbols have distinct identifiers; `DecodedGraph.unique`.
-/

namespace ApiSurface

/-- Whether a symbol is kept in place of another one with its identifier. -/
def Symbol.isPreferredTo (candidate current : Symbol) : Bool :=
  match candidate.isAsync, current.isAsync with
  | false, true => true
  | true, false => false
  | _, _ => compare candidate.render current.render == .lt

/-- Adds a symbol to those collected, unless a preferable one with its identifier is there. -/
def keepPreferred (symbols : Table String Symbol) (candidate : Symbol) : Table String Symbol :=
  symbols.alter candidate.precise fun
    | none => candidate
    | some current => if candidate.isPreferredTo current then candidate else current

/-- The preferred symbols by identifier. -/
def preferredSymbols (entries : List Symbol) : Table String Symbol :=
  entries.foldl keepPreferred .empty

/-- A graph with one symbol for each identifier. -/
structure UniqueGraph where
  path : Path
  name : GraphName
  metadata : Metadata
  module : Module
  symbols : Table String Symbol
  relationships : List Relationship
  /-- How many entries were dropped in favour of others. -/
  collapsed : Nat

/-- The graph with one symbol for each identifier of a decoded graph. -/
def DecodedGraph.unique (decoded : DecodedGraph) : UniqueGraph :=
  let entries := decoded.graph.symbols
  let symbols := preferredSymbols entries
  { path := decoded.path
    name := decoded.name
    metadata := decoded.graph.metadata
    module := decoded.graph.module
    symbols
    relationships := decoded.graph.relationships
    collapsed := entries.length - symbols.size }

namespace UniqueGraph

/-- What is logged when entries are dropped. -/
def collapseEvents (graph : UniqueGraph) : List Event :=
  if graph.collapsed = 0 then [] else [.symbolsCollapsed graph.collapsed graph.path]

/-- The role of the graph. -/
def role (graph : UniqueGraph) : Role := graph.name.role graph.module

end UniqueGraph

/-- What is logged when the declared name of a module is used in place of the one in
its file name. -/
def GraphName.overruleEvents (name : GraphName) (module : Module) : List Event :=
  if name.isOverruled module then [.nameOverruled name module.name] else []

end ApiSurface
