import ApiSurface.Log.Event
import ApiSurface.Failure

/-!
# Decoding

A source is decoded either as a whole, or first its envelope and then its symbols in
batches. In the second way a symbol is read on its own, so that arrays and objects may be
nested in it as deeply as in a text. If a symbol cannot be read, the source is decoded as a
whole once more, for the fault that is met first in the order of the text.

## Main definitions

* `Request.decodeWhole`, `Request.decodeInBatches`: the two ways of decoding.
* `Plan.decode`: the graphs of all sources.
-/

namespace ApiSurface

open Json Wire

/-- Runs of a list, each with a number of members, which counts as one if it is zero; the
last run may have fewer. -/
def batches {α : Type} (size : Nat) : List α → List (List α)
  | [] => []
  | a :: rest => (a :: rest.take (size - 1)) :: batches size (rest.drop (size - 1))
termination_by as => as.length
decreasing_by simp only [List.length_drop, List.length_cons]; omega

/-- Reads a symbol that was left as it stands. -/
def readSymbol (node : Node) : Except Fault Symbol := Symbol.shape.decode .ofText node

/-- Reads symbols batch by batch. -/
def readBatches (size : Nat) (nodes : List Node) : Except Fault (List Symbol) := do
  let read ← (batches size nodes).mapM fun batch => batch.mapM readSymbol
  return read.flatten

/-- Reads a graph, its symbols in batches. -/
def readGraphInBatches (size : Nat) (text : List UInt8) : Except Diagnostic SymbolGraph := do
  let envelope ← Envelope.shape.ofBytes text
  match readBatches size envelope.symbols with
  | .ok symbols => return { envelope with symbols }
  | .error fault =>
    match SymbolGraph.shape.ofBytes text with
    | .error diagnostic => throw diagnostic
    | .ok _ => throw (fault.locate text)

namespace Request

/-- Decodes a source, whose text is read by the given function. -/
def decodeBy (request : Request) (disk : Disk)
    (read : List UInt8 → Except Diagnostic SymbolGraph) : Except LoadFault DecodedGraph :=
  let path := request.source.path
  match request.source.read disk with
  | .error fault => .error (.decode path (.file fault))
  | .ok text =>
    match read text with
    | .error diagnostic => .error (.decode path (.json diagnostic))
    | .ok graph => .ok ⟨path, request.name, graph⟩

/-- Decodes a source as a whole. -/
def decodeWhole (request : Request) (disk : Disk) : Traced LoadFault DecodedGraph := do
  let decoded ← Traced.ofExcept (request.decodeBy disk SymbolGraph.shape.ofBytes)
  let graph := decoded.graph
  Traced.note [.wholeDecoded decoded.path graph.symbols.length graph.relationships.length]
  return decoded

/-- Decodes a source, its symbols in batches. -/
def decodeInBatches (request : Request) (disk : Disk) (batchSize : UInt64) :
    Traced LoadFault DecodedGraph := do
  let decoded ← Traced.ofExcept (request.decodeBy disk (readGraphInBatches batchSize.toNat))
  let graph := decoded.graph
  Traced.note
    [.batchesDecoded decoded.path batchSize graph.symbols.length graph.relationships.length]
  return decoded

end Request

/-- Decodes all sources by a plan, up to the first one that cannot be decoded. -/
def Plan.decode (plan : Plan) (profile : Profile) (disk : Disk) (requests : List Request) :
    Traced LoadFault (List DecodedGraph) :=
  match plan with
  | .wholeFiles => Traced.forEach (fun request => request.decodeWhole disk) requests
  | .batchedSymbols =>
    Traced.forEach
      (fun request => request.decodeInBatches disk profile.symbolsPerBatch) requests

end ApiSurface
