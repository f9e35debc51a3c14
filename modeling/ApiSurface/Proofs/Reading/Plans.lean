import ApiSurface.Proofs.Results
import ApiSurface.Reading.Decoder

/-!
# Decoding by a plan

Under either plan the sources are decoded one by one. The plans differ only in how the text
of a source is read.

## Main results

* `Plan.decode_result`: decoding by a plan is a step for each source.
* `Plan.decode_eq_ok_iff`: what all sources have to be so that they are decoded.
-/

namespace ApiSurface

open Json

/-- A request is decoded if its source can be read, and the text in it. -/
theorem Request.decodeBy_eq_ok_iff {request : Request} {disk : Disk}
    {read : List UInt8 → Except Diagnostic SymbolGraph} {decoded : DecodedGraph} :
    request.decodeBy disk read = .ok decoded ↔
      ∃ text g, request.source.read disk = .ok text ∧ read text = .ok g ∧
        ⟨request.source.path, request.name, g⟩ = decoded := by
  rw [Request.decodeBy]
  cases request.source.read disk with
  | error fault => simp
  | ok text =>
    simp only [Except.ok.injEq, exists_and_left, exists_eq_left']
    cases read text <;> simp

namespace Plan

/-- How the text of a source is read under a plan. -/
def read (plan : Plan) (profile : Profile) : List UInt8 → Except Diagnostic SymbolGraph :=
  match plan with
  | .wholeFiles => SymbolGraph.shape.ofBytes
  | .batchedSymbols => readGraphInBatches profile.symbolsPerBatch.toNat

/-- Decoding by a plan decodes one source after the other, up to the first that
cannot be decoded. -/
theorem decode_result (plan : Plan) (profile : Profile) (disk : Disk)
    (requests : List Request) :
    (plan.decode profile disk requests).result =
      requests.mapM fun request => request.decodeBy disk (plan.read profile) := by
  cases plan with
  | wholeFiles => simp [Plan.decode, Request.decodeWhole, Plan.read]
  | batchedSymbols => simp [Plan.decode, Request.decodeInBatches, Plan.read]

/-- Decoding by a plan succeeds if each source can be read, and its text in the way
of the plan. -/
theorem decode_eq_ok_iff {plan : Plan} {profile : Profile} {disk : Disk}
    {requests : List Request} {decoded : List DecodedGraph} :
    (plan.decode profile disk requests).result = .ok decoded ↔
      List.Forall₂ (fun request d => request.decodeBy disk (plan.read profile) = .ok d)
        requests decoded := by
  rw [decode_result, Except.mapM_eq_ok_iff]

end Plan

end ApiSurface
