import ApiSurface.Model.Module
import ApiSurface.Model.Symbol

/-!
# Symbol graphs

A symbol graph lists the symbols of a module and the relationships between them. In a file it
may be read at once, or at first only its envelope, which leaves each symbol as it stands.

## Main definitions

* `GraphOf`: a symbol graph with entries of some type.
* `SymbolGraph`: a graph whose symbols have been read; `SymbolGraph.shape`.
* `Envelope`: a graph whose symbols have not been read yet; `Envelope.shape`.
-/

namespace ApiSurface

open Wire Json

/-- The header of a symbol graph. -/
structure Metadata where
  formatVersion : Version
  generator : String
  deriving DecidableEq

/-- How a header is written. -/
def Metadata.shape : Shape Metadata :=
  .record "Metadata" (.required "formatVersion" Version.shape <|
    .required "generator" .text .done)
    (fun (formatVersion, generator, ()) => ⟨formatVersion, generator⟩)
    (fun m => (m.formatVersion, m.generator, ()))
    (fun _ => rfl)

/-- A symbol graph with entries of type `σ` in the order of its file. Several entries may
have one identifier. -/
structure GraphOf (σ : Type) where
  metadata : Metadata
  module : Module
  symbols : List σ
  relationships : List Relationship

/-- How a symbol graph is written whose entries have a shape. -/
def GraphOf.shape {σ : Type} (name : String) (symbol : Shape σ) : Shape (GraphOf σ) :=
  .record name
    (.required "metadata" Metadata.shape <| .required "module" Module.shape <|
      .defaulted "symbols" (.list symbol) [] <|
      .defaulted "relationships" (.list Relationship.shape) [] .done)
    (fun (metadata, module, symbols, relationships, ()) =>
      ⟨metadata, module, symbols, relationships⟩)
    (fun g => (g.metadata, g.module, g.symbols, g.relationships, ()))
    (fun _ => rfl)

/-- A symbol graph. -/
abbrev SymbolGraph := GraphOf Symbol

/-- How a symbol graph is written. -/
def SymbolGraph.shape : Shape SymbolGraph := GraphOf.shape "SymbolGraph" Symbol.shape

/-- A symbol graph whose symbols have not been read yet. -/
abbrev Envelope := GraphOf Node

/-- How a symbol graph is written whose symbols are not to be read yet. -/
def Envelope.shape : Shape Envelope := GraphOf.shape "Envelope" .raw

end ApiSurface
