import ApiSurface.Merging.Consolidation
import ApiSurface.Proofs.Merging.Overlays

/-!
# Merging a group

The merged graph of a group has everything from its base, except that its symbols have been
extended: by the overlays in their order, and by what is assumed for the module they were
authored in after that.

## Main results

* `MergedGraph.addOverlays_eq_ok`, `MergedGraph.addAssumed_eq_ok`: the two steps.
* `Group.merge_eq_ok`: the merged graph of a group.
-/

namespace ApiSurface

/-- What some overlays offer to the symbol with an identifier, one after the other. -/
def offeredBy (overlays : List UniqueGraph) (precise : String) :
    Except Json.Cause Availability :=
  (overlays.mapM fun overlay : UniqueGraph => overlay.offered precise).map List.flatten

/-- What the first of some overlays offers comes first. -/
theorem offeredBy_cons (overlay : UniqueGraph) (overlays : List UniqueGraph)
    (precise : String) :
    offeredBy (overlay :: overlays) precise =
      (do return (← overlay.offered precise) ++ (← offeredBy overlays precise)) := by
  rw [offeredBy, List.mapM_cons, offeredBy]
  cases overlay.offered precise with
  | error cause => rfl
  | ok items =>
    cases overlays.mapM fun overlay : UniqueGraph => overlay.offered precise <;> rfl

/-- What overlays offer is what each of them offers, in their order. -/
theorem offeredBy_eq_ok_iff {overlays : List UniqueGraph} {precise : String}
    {items : Availability} :
    offeredBy overlays precise = .ok items ↔
      ∃ offers, List.Forall₂ (fun overlay offer => overlay.offered precise = .ok offer)
        overlays offers ∧ offers.flatten = items := by
  rw [offeredBy, Except.map_eq_ok_iff]
  simp only [Except.mapM_eq_ok_iff]

namespace MergedGraph

/-- Overlays extend the symbols of a merged graph, and are listed in it. -/
theorem addOverlays_eq_ok {graph graph' : MergedGraph} {overlays : List UniqueGraph}
    {added : Nat} (h : (graph.addOverlays overlays).result = .ok (graph', added)) :
    Extends (offeredBy overlays) graph.symbols graph'.symbols ∧
      graph' = { graph with
        symbols := graph'.symbols
        overlayPaths := graph.overlayPaths ++ overlays.map UniqueGraph.path } := by
  induction overlays generalizing graph added with
  | nil =>
    cases h
    exact ⟨.refl _, by rw [List.map_nil, List.append_nil]⟩
  | cons overlay overlays ih =>
    simp only [addOverlays, Traced.result_bind, Traced.result_ofExcept, Traced.result_note,
      Traced.result_pure, Except.bind_eq_ok_iff, Except.ok.injEq, Prod.mk.injEq,
      Prod.exists] at h
    obtain ⟨overlaid, hoverlaid, _, -, graph', later, hlater, rfl, -⟩ := h
    obtain ⟨hextends, hgraph⟩ := ih hlater
    refine ⟨?_, ?_⟩
    · refine ((applyOverlay_extends hoverlaid).trans hextends).congr
        fun precise items hitems => ?_
      rwa [offeredBy_cons]
    · rw [List.map_cons, List.append_cons]
      exact hgraph

/-- Assumptions extend the symbols of a merged graph. -/
theorem addAssumed_eq_ok {graph graph' : MergedGraph} {assumptions : Assumptions} {added : Nat}
    (h : graph.addAssumed assumptions = .ok (graph', added)) :
    Extends (fun _ => .ok (assumptions.statements graph.author)) graph.symbols graph'.symbols ∧
      graph' = { graph with symbols := graph'.symbols } := by
  rw [addAssumed] at h
  rw [Assumptions.statements]
  cases hassumed : assumptions.get? graph.author with
  | none =>
    rw [hassumed] at h
    cases h
    exact ⟨.refl _, rfl⟩
  | some assumed =>
    simp only [hassumed, Except.map_eq_ok_iff, Prod.mk.injEq, Prod.exists] at h
    obtain ⟨symbols, count, hsymbols, rfl, -⟩ := h
    exact ⟨applyAssumed_extends hsymbols, rfl⟩

end MergedGraph

/-- **Merging a group.** The merged graph of a group is its base, with the symbols extended
by what the overlays offer, in their order, and then by what is assumed. -/
theorem Group.merge_eq_ok {group : Group} {role : Role} {assumptions : Assumptions}
    {merged : MergedGraph} {tally : Tally}
    (h : (group.merge role assumptions).result = .ok (merged, tally)) :
    Extends (fun precise => do
        return (← offeredBy group.overlays precise) ++ assumptions.statements merged.author)
      group.base.symbols merged.symbols ∧
      merged = { group.base.asMerged role with
        symbols := merged.symbols
        overlayPaths := group.overlays.map UniqueGraph.path } := by
  simp only [Group.merge, Traced.result_bind, Traced.result_ofExcept, Traced.result_pure,
    Except.bind_eq_ok_iff, Except.ok.injEq, Prod.mk.injEq, Prod.exists] at h
  obtain ⟨overlaid, added, hoverlaid, merged, assumed, hassumed, rfl, -⟩ := h
  obtain ⟨hoverlays, hgraph⟩ := MergedGraph.addOverlays_eq_ok hoverlaid
  obtain ⟨hassumptions, hgraph'⟩ := MergedGraph.addAssumed_eq_ok hassumed
  rw [hgraph] at hgraph'
  have hauthor : merged.author = overlaid.author := by rw [hgraph', hgraph]; rfl
  refine ⟨(hoverlays.trans hassumptions).congr fun precise items hitems => ?_, ?_⟩
  · rw [hauthor]
    exact hitems
  · exact hgraph'

end ApiSurface
