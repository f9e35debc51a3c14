import ApiSurface.Proofs.Merging.Consolidation

/-!
# Symbols of merged graphs

A symbol of a merged graph is the one of the base, with the availability of the overlays and
of the assumptions appended. A statement counts only if no earlier one is about its domain,
so the base takes precedence over the overlays, these take precedence in their order, and
assumptions come last.

## Main results

* `MergedSymbol`: how a symbol of a merged graph relates to that of the base.
* `MergedFrom`, `consolidate_mergedFrom`: all symbols of all merged graphs.
-/

namespace ApiSurface

open Availability (novel)

/-- How a merged symbol comes from that of a base and the statements offered to it, in
their order. -/
structure MergedSymbol (base : Symbol) (offered : Availability) (merged : Symbol) : Prop where
  /-- If any statement is novel, the novel ones have been appended to those of the base. -/
  appended : ∀ known, base.statements = .ok known → novel known offered ≠ [] →
    merged.availability = .ok (some (known ++ novel known offered))
  /-- If no statement is novel, the symbol is that of the base. -/
  untouched : (∀ known, base.statements = .ok known → novel known offered = []) → merged = base
  /-- If anything is offered, the availability of the base can be read. -/
  readable : offered ≠ [] → ∃ known, base.statements = .ok known
  /-- Nothing but payloads has changed. -/
  fields : merged = { base with mixins := merged.mixins }
  /-- No other payload than the availability has changed. -/
  payloads : ∀ key, key ≠ Availability.mixin.key →
    merged.mixins.get? key = base.mixins.get? key

/-- A symbol that has been extended comes from the one before. -/
theorem Symbol.Extended.mergedSymbol {base merged : Symbol} {offered : Availability}
    (h : base.Extended offered merged) : MergedSymbol base offered merged := by
  cases h with
  | none hoffered =>
    subst hoffered
    constructor
    case appended => exact fun known _ hnovel => absurd rfl hnovel
    case untouched => exact fun _ => rfl
    case readable => exact fun hne => absurd rfl hne
    case fields => rfl
    case payloads => exact fun _ _ => rfl
  | @some known hknown =>
    by_cases hnovel : novel known offered = []
    · rw [Symbol.extendBy, if_pos hnovel]
      constructor
      case appended =>
        intro known' hknown' hne
        rw [hknown, Except.ok.injEq] at hknown'
        exact absurd (hknown' ▸ hnovel) hne
      case untouched => exact fun _ => rfl
      case readable => exact fun _ => ⟨known, hknown⟩
      case fields => rfl
      case payloads => exact fun _ _ => rfl
    · rw [Symbol.extendBy, if_neg hnovel]
      constructor
      case appended =>
        intro known' hknown' _
        rw [hknown, Except.ok.injEq] at hknown'
        subst hknown'
        exact base.mixin?_setMixin _ Availability.shape_isPlain _
      case untouched => exact fun hnone => absurd (hnone known hknown) hnovel
      case readable => exact fun _ => ⟨known, hknown⟩
      case fields => rfl
      case payloads => exact fun key hkey => base.mixins_setMixin_of_ne _ _ hkey

/-- How a merged graph comes from a base and overlays. -/
structure MergedFrom (assumptions : Assumptions) (base : UniqueGraph)
    (overlays : List UniqueGraph) (m : MergedGraph) : Prop where
  basePath : m.basePath = base.path
  overlayPaths : m.overlayPaths = overlays.map UniqueGraph.path
  module : m.module = base.module
  keys : m.symbols.keys = base.symbols.keys
  /-- A symbol comes from the one with its identifier in the base. What is offered to it are
  the statements of the symbols with its identifier in the overlays, in their order, and
  then those assumed for the module that the graph was authored in. -/
  symbols : ∀ precise symbol, m.symbols.get? precise = some symbol →
    ∃ original offers, base.symbols.get? precise = some original ∧
      List.Forall₂ (fun overlay offer => overlay.offered precise = .ok offer) overlays offers ∧
      MergedSymbol original (offers.flatten ++ assumptions.statements m.author) symbol

/-- **Availability of merged symbols.** Each merged graph comes from the graphs of its role,
and each of its symbols from that of the base and what the overlays and the assumptions
offer to it. -/
theorem consolidate_mergedFrom {graphs : List UniqueGraph} {assumptions : Assumptions}
    {merged : List MergedGraph} {tally : Tally}
    (h : (consolidate graphs assumptions).result = .ok (merged, tally)) {m : MergedGraph}
    (hm : m ∈ merged) :
    ∃ base overlays, (base :: overlays).Perm (graphs.filter fun graph => graph.role = m.role) ∧
      MergedFrom assumptions base overlays m := by
  obtain ⟨group, t, hgroup, hmerge⟩ := exists_group_of_mem h hm
  obtain ⟨hperm, -⟩ := Table.get?_groupByRole hgroup
  obtain ⟨hextends, hmerged⟩ := Group.merge_eq_ok hmerge
  refine ⟨group.base, group.overlays, hperm, ?_⟩
  constructor
  case basePath => rw [hmerged]; rfl
  case overlayPaths => rw [hmerged]
  case module => rw [hmerged]; rfl
  case keys => exact hextends.keys_eq
  case symbols =>
    intro precise symbol hsymbol
    obtain ⟨hnone, hsome⟩ := hextends precise
    cases hbase : group.base.symbols.get? precise with
    | none =>
      rw [hnone hbase] at hsymbol
      cases hsymbol
    | some original =>
      obtain ⟨items, symbol', hitems, hsymbol', hextended⟩ := hsome original hbase
      rw [hsymbol', Option.some.injEq] at hsymbol
      subst hsymbol
      simp only [Except.bind_eq_ok_iff, Except.pure_eq_ok_iff, offeredBy_eq_ok_iff] at hitems
      obtain ⟨_, ⟨offers, hoffers, rfl⟩, rfl⟩ := hitems
      exact ⟨original, offers, rfl, hoffers, hextended.mergedSymbol⟩

/-- A graph with one symbol, which is available for a domain since the first version. -/
def graphAvailableFor (path domain : String) : UniqueGraph where
  path := .ofText path
  name := .main "M"
  metadata := ⟨⟨1, 0, 0, none, none⟩, "g"⟩
  module := ⟨"M", .unknown, none, false⟩
  symbols := Table.empty.insert "s" <|
    Symbol.setMixin ⟨⟨"s", "swift"⟩, ⟨"func", "Function"⟩, [], .untitled, "public", .empty⟩
      Availability.mixin [.ofIntroduced domain ⟨1, 0, 0, none, none⟩]
  relationships := []
  collapsed := 0

/-- Graphs of one module for two domains. -/
def graphsForTwoDomains : List UniqueGraph :=
  [graphAvailableFor "a/M.symbols.json" "macOS", graphAvailableFor "b/M.symbols.json" "iOS"]

/-- The assumption that what is authored in the module is available for a third domain. -/
def thirdDomainAssumed : Assumptions :=
  Table.empty.insert "M" [⟨"tvOS", ⟨2, 0, 0, none, none⟩⟩]

/-- Graphs for two domains, with a third one assumed, are merged into one graph that
comes from them. -/
theorem consolidate_mergedFrom_two : ∃ m tally,
    (consolidate graphsForTwoDomains thirdDomainAssumed).result = .ok ([m], tally) ∧
    ∃ base overlays,
      (base :: overlays).Perm (graphsForTwoDomains.filter fun graph => graph.role = m.role) ∧
      MergedFrom thirdDomainAssumed base overlays m := by
  have hone : (consolidate graphsForTwoDomains thirdDomainAssumed).result.toOption.map
      (fun r => r.1.length) = some 1 := by decide +kernel
  cases h : (consolidate graphsForTwoDomains thirdDomainAssumed).result with
  | error fault => rw [h] at hone; cases hone
  | ok r =>
    obtain ⟨merged, tally⟩ := r
    rw [h, Except.toOption, Option.map_some, Option.some.injEq] at hone
    obtain ⟨m, rfl⟩ := List.length_eq_one_iff.mp hone
    exact ⟨m, tally, rfl, consolidate_mergedFrom h (List.mem_singleton_self m)⟩

end ApiSurface
