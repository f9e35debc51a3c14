import ApiSurface.Decimal.Digits
import ApiSurface.Decimal.Shortest
import ApiSurface.Digest.Xxh3
import ApiSurface.Failure
import ApiSurface.Files.Disk
import ApiSurface.Files.Path
import ApiSurface.Files.Walk
import ApiSurface.Json.Document
import ApiSurface.Json.Embedded
import ApiSurface.Json.Fault
import ApiSurface.Json.Lexical
import ApiSurface.Json.Node
import ApiSurface.Json.Number
import ApiSurface.Json.Value
import ApiSurface.Log.Event
import ApiSurface.Log.Filter
import ApiSurface.Log.Journal
import ApiSurface.Merging.Consolidation
import ApiSurface.Merging.MergedGraph
import ApiSurface.Merging.Overlay
import ApiSurface.Merging.UniqueGraph
import ApiSurface.Model.Availability
import ApiSurface.Model.Graph
import ApiSurface.Model.Module
import ApiSurface.Model.Symbol
import ApiSurface.Naming.GraphName
import ApiSurface.Naming.Role
import ApiSurface.Proofs.Results
import ApiSurface.Reading.Decoder
import ApiSurface.Reading.Plan
import ApiSurface.Reading.Source
import ApiSurface.Session.Configure
import ApiSurface.Session.Directory
import ApiSurface.Session.Loader
import ApiSurface.Settings.Settings
import ApiSurface.Table
import ApiSurface.Text.Lossy
import ApiSurface.Text.Quoted
import ApiSurface.Text.Words
import ApiSurface.Wire.Decode
import ApiSurface.Wire.Encode
import ApiSurface.Wire.Shape
import ApiSurface.Proofs.Reading.Records
import ApiSurface.Proofs.Reading.Nesting
import ApiSurface.Proofs.Reading.Shapes
import ApiSurface.Proofs.Reading.Passing
import ApiSurface.Proofs.Reading.Graphs
import ApiSurface.Proofs.Reading.Agreement
import ApiSurface.Proofs.Tables
import ApiSurface.Proofs.Merging.Groups
import ApiSurface.Proofs.Model.Availability
import ApiSurface.Proofs.Reading.RoundTrip
import ApiSurface.Proofs.Model.Mixins
import ApiSurface.Proofs.Merging.Overlays
import ApiSurface.Proofs.Merging.Merge
import ApiSurface.Proofs.Merging.Consolidation
import ApiSurface.Proofs.Merging.Partition
import ApiSurface.Proofs.Merging.MergedSymbols
import ApiSurface.Proofs.Session.InputOrder
import ApiSurface.Proofs.Merging.Separation
import ApiSurface.Proofs.Merging.Failures
import ApiSurface.Proofs.Session.Runs
import ApiSurface.Proofs.Json.Documents
import ApiSurface.Proofs.Json.Settled
import ApiSurface.Proofs.Reading.Faithful
import ApiSurface.Proofs.Reading.Kept
import ApiSurface.Proofs.Reading.Rereading
import ApiSurface.Proofs.Model.WireTypes
import ApiSurface.Proofs.Merging.Identity
import ApiSurface.Proofs.Merging.Payloads
import ApiSurface.Proofs.Merging.Totals
import ApiSurface.Proofs.Session.Accounting
import ApiSurface.Proofs.Reading.FirstFaults
import ApiSurface.Proofs.Reading.Diagnostics
import ApiSurface.Proofs.Naming.Grammar
import ApiSurface.Proofs.Reading.Batches
import ApiSurface.Proofs.Model.Survival
import ApiSurface.Proofs.Decimal.Layouts
import ApiSurface.Proofs.Json.NumberTexts
import ApiSurface.Proofs.Json.Unambiguous
import ApiSurface.Proofs.Model.SymbolTexts
import ApiSurface.Proofs.Merging.Preference
import ApiSurface.Proofs.Session.Stages
import ApiSurface.Proofs.Merging.Listing
import ApiSurface.Proofs.Merging.Idempotence
import ApiSurface.Proofs.Reading.Layout
import ApiSurface.Proofs.Settings.Spellings
import ApiSurface.Proofs.Settings.Overrides
import ApiSurface.Proofs.Settings.Layers
import ApiSurface.Proofs.Naming.Paths
import ApiSurface.Proofs.Session.Discovery
import ApiSurface.Proofs.Files.Paths
import ApiSurface.Proofs.Files.Trees
import ApiSurface.Proofs.Files.Walks
import ApiSurface.Proofs.Session.Completeness
import ApiSurface.Proofs.Json.Resolved
import ApiSurface.Proofs.Reading.Likeness
import ApiSurface.Proofs.Reading.ValueTrees
