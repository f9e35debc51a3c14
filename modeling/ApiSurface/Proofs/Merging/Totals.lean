import ApiSurface.Proofs.Merging.Merge
import Mathlib.Algebra.BigOperators.Group.List.Basic
import Mathlib.Algebra.GroupWithZero.Nat
import Mathlib.Algebra.Order.BigOperators.Group.List

/-!
# How many statements are added

The numbers of statements that overlays and assumptions are said to have added are counted
on the way, one symbol after the other. They can be checked against the outcome alone: after
every step, the statements of all symbols together are those from before and those counted.

## Main results

* `Table.total`, `Table.total_insert`: a number summed up over a table, and what replacing a
  value does to it.
* `applyOverlay_total`, `applyAssumed_total`: the statements that one overlay and the
  assumptions add.
* `Group.merge_total`: the statements added to all symbols of a merged graph.
* `Symbol.Gains`, `Extends.exists_gains`, `Group.merge_gains`: the same, symbol by symbol.
-/

namespace ApiSurface

open Availability (novel)

/-! ### Sums over a table -/

namespace Table

variable {κ ν : Type} [Ord κ] {weight : ν → Nat}

/-- A number summed up over the values of a table. -/
def total (weight : ν → Nat) (t : Table κ ν) : Nat :=
  (t.entries.map fun entry => weight entry.2).sum

variable [Std.TransOrd κ] [Std.LawfulEqOrd κ]

/-- Putting a value in place of another one changes the sum by the difference
between the two. -/
theorem total_insert {t : Table κ ν} {key : κ} {value : ν} (h : t.get? key = some value)
    (value' : ν) :
    (t.insert key value').total weight + weight value = t.total weight + weight value' := by
  have hold := ((t.entries_perm key).map fun entry => weight entry.2).sum_eq
  have hnew := ((t.insert_entries_perm key value').map fun entry => weight entry.2).sum_eq
  rw [h, Option.toList_some, List.map_singleton, List.singleton_append, List.map_cons,
    List.sum_cons] at hold
  rw [List.map_cons, List.sum_cons] at hnew
  rw [total, total, hold, hnew]
  dsimp only
  omega

/-- The sum over a table is one over its keys. -/
theorem total_eq_sum_keys (weight : ν → Nat) (t : Table κ ν) :
    t.total weight = (t.keys.map fun key => ((t.get? key).map weight).getD 0).sum := by
  rw [total, keys, List.map_map]
  refine congrArg List.sum (List.map_congr_left fun entry hentry => ?_)
  rw [Function.comp_apply, mem_entries_iff.mp hentry]
  rfl

end Table

/-! ### One symbol -/

namespace Symbol

variable {s : Symbol} {known offered : Availability} {path : Path}

/-- How many statements a symbol makes on its availability. -/
def statementCount (s : Symbol) : Nat := (s.statements.toOption.getD []).length

/-- The number of statements that can be read. -/
theorem statementCount_of_statements (h : s.statements = .ok known) :
    s.statementCount = known.length := by
  rw [statementCount, h]
  rfl

/-- Extending a symbol adds as many statements as it counts. -/
theorem statementCount_of_extendAvailability {s' : Symbol} {count : Nat}
    (h : s.extendAvailability path offered = .ok (s', count)) :
    s'.statementCount = s.statementCount + count := by
  obtain ⟨known, hknown, heq⟩ := extendAvailability_eq_ok_iff.mp h
  obtain ⟨rfl, rfl⟩ := Prod.mk.inj heq
  rw [statementCount_of_statements hknown,
    statementCount_of_statements (statements_extendBy hknown offered), List.length_append]

/-- What a symbol says on its availability depends on what stands in it as such. -/
theorem statements_congr {s s' : Symbol} (h : s.availabilityValue = s'.availabilityValue) :
    s.statements = s'.statements := by
  rw [statements, statements, availability, availability, mixin?, mixin?]
  rw [availabilityValue, availabilityValue] at h
  rw [h]

/-- Whether a merged symbol has gained so many statements over that of the base. -/
structure Gains (original merged : Symbol) (n : Nat) : Prop where
  /-- If what stands in the symbol as its availability has not changed, none. -/
  unchanged : merged.availabilityValue = original.availabilityValue → n = 0
  /-- Else there are so many more, where a symbol without availability has no statements. -/
  changed : merged.availabilityValue ≠ original.availabilityValue → ∃ known items,
    original.statements = .ok known ∧ merged.availability = .ok (some items) ∧
      items.length = known.length + n

/-- A symbol that stays as it is has gained nothing. -/
theorem Gains.refl (s : Symbol) : s.Gains s 0 := ⟨fun _ => rfl, fun hne => absurd rfl hne⟩

/-- A symbol that has been extended has gained the statements that it makes in addition. -/
theorem Extended.exists_gains {s s' : Symbol} (h : s.Extended offered s') :
    ∃ n, s'.statementCount = s.statementCount + n ∧ s.Gains s' n := by
  cases h with
  | none _ => exact ⟨0, rfl, .refl s⟩
  | @some known hknown =>
    by_cases hnovel : novel known offered = []
    · rw [extendBy, if_pos hnovel]
      exact ⟨0, rfl, .refl s⟩
    · have hmerged := statements_extendBy hknown offered
      refine ⟨(novel known offered).length, ?_, fun heq => ?_, fun _ => ?_⟩
      · rw [statementCount_of_statements hknown, statementCount_of_statements hmerged,
          List.length_append]
      · rw [statements_congr heq, hknown, Except.ok.injEq] at hmerged
        exact absurd (List.self_eq_append_right.mp hmerged) hnovel
      · refine ⟨known, known ++ novel known offered, hknown, ?_, List.length_append⟩
        rw [extendBy, if_neg hnovel]
        exact s.mixin?_setMixin _ Availability.shape_isPlain _

end Symbol

/-! ### Overlays and assumptions -/

/-- How many statements the symbols of a table make. -/
def statementTotal (symbols : Table String Symbol) : Nat := symbols.total Symbol.statementCount

/-- How many statements the symbol with an identifier makes; none if there is no
such symbol. -/
def statementsUnder (symbols : Table String Symbol) (precise : String) : Nat :=
  ((symbols.get? precise).map Symbol.statementCount).getD 0

/-- The number of statements of a symbol that is there. -/
theorem statementsUnder_of_get? {symbols : Table String Symbol} {precise : String} {s : Symbol}
    (h : symbols.get? precise = some s) :
    statementsUnder symbols precise = s.statementCount := by
  rw [statementsUnder, h]
  rfl

/-- How many statements the symbol with an identifier has gained from one table to another. -/
def gainedUnder (symbols symbols' : Table String Symbol) (precise : String) : Nat :=
  statementsUnder symbols' precise - statementsUnder symbols precise

namespace Extends

variable {offered : String → Except Json.Cause Availability}
  {symbols symbols' : Table String Symbol}

/-- A symbol of a table that has been extended has gained statements over the one
from before. -/
theorem exists_gains (h : Extends offered symbols symbols') {precise : String} {s' : Symbol}
    (hs' : symbols'.get? precise = some s') : ∃ s, symbols.get? precise = some s ∧
      statementsUnder symbols' precise =
        statementsUnder symbols precise + gainedUnder symbols symbols' precise ∧
      s.Gains s' (gainedUnder symbols symbols' precise) := by
  obtain ⟨_, s, -, hs, hextended⟩ := h.exists_of_get? hs'
  obtain ⟨n, hcount, hn⟩ := hextended.exists_gains
  rw [← statementsUnder_of_get? hs, ← statementsUnder_of_get? hs'] at hcount
  have hgained : gainedUnder symbols symbols' precise = n := by
    rw [gainedUnder, hcount, Nat.add_sub_cancel_left]
  rw [hgained]
  exact ⟨s, hs, hcount, hn⟩

/-- The symbols of a table that has been extended make the statements from before, and those
that each of them has gained. -/
theorem statementTotal_eq (h : Extends offered symbols symbols') : statementTotal symbols' =
    statementTotal symbols + (symbols'.keys.map (gainedUnder symbols symbols')).sum := by
  have heach : ∀ precise ∈ symbols'.keys, statementsUnder symbols' precise =
      statementsUnder symbols precise + gainedUnder symbols symbols' precise := by
    intro precise hprecise
    obtain ⟨s', hs'⟩ := Table.mem_keys_iff.mp hprecise
    obtain ⟨_, -, hcount, -⟩ := h.exists_gains hs'
    exact hcount
  calc statementTotal symbols'
      = (symbols'.keys.map (statementsUnder symbols')).sum := Table.total_eq_sum_keys _ _
    _ = (symbols'.keys.map fun precise =>
          statementsUnder symbols precise + gainedUnder symbols symbols' precise).sum := by
        rw [List.map_congr_left heach]
    _ = (symbols'.keys.map (statementsUnder symbols)).sum +
          (symbols'.keys.map (gainedUnder symbols symbols')).sum := List.sum_map_add
    _ = statementTotal symbols + (symbols'.keys.map (gainedUnder symbols symbols')).sum := by
        rw [h.keys_eq, statementTotal, Table.total_eq_sum_keys]
        rfl

end Extends

/-- Extending one symbol of a table adds as many statements as it counts. -/
theorem statementTotal_insert {symbols : Table String Symbol} {precise : String}
    {s s' : Symbol} {path : Path} {offered : Availability} {count : Nat}
    (hs : symbols.get? precise = some s)
    (h : s.extendAvailability path offered = .ok (s', count)) :
    statementTotal (symbols.insert precise s') = statementTotal symbols + count := by
  have htotal : (symbols.insert precise s').total Symbol.statementCount + s.statementCount =
      symbols.total Symbol.statementCount + s'.statementCount := Table.total_insert hs s'
  have hcount := Symbol.statementCount_of_extendAvailability h
  rw [statementTotal, statementTotal]
  omega

/-- One symbol of an overlay adds as many statements as it counts. -/
theorem applySymbol_total {base overlay : Path} {state state' : Overlaid}
    {entry : String × Symbol} (h : applySymbol base overlay state entry = .ok state') :
    statementTotal state'.symbols + state.added = statementTotal state.symbols +
      state'.added := by
  rw [applySymbol] at h
  cases hsymbol : state.symbols.get? entry.1 with
  | none =>
    simp only [hsymbol, Except.pure_eq_ok_iff] at h
    subst h
    rfl
  | some symbol =>
    simp only [hsymbol, Except.bind_eq_ok_iff] at h
    obtain ⟨payload, -, h⟩ := h
    cases payload with
    | none =>
      rw [Except.pure_eq_ok_iff] at h
      subst h
      rfl
    | some offered =>
      simp only [Except.bind_eq_ok_iff, Except.pure_eq_ok_iff, Prod.exists] at h
      obtain ⟨extended, count, hextended, rfl⟩ := h
      have htotal := statementTotal_insert hsymbol hextended
      dsimp only
      omega

/-- An overlay adds as many statements as it counts. -/
theorem applyOverlay_total {base : Path} {symbols : Table String Symbol}
    {overlay : UniqueGraph} {overlaid : Overlaid}
    (h : applyOverlay base symbols overlay = .ok overlaid) :
    statementTotal overlaid.symbols = statementTotal symbols + overlaid.added := by
  simp only [applyOverlay, Except.bind_eq_ok_iff] at h
  obtain ⟨state, hstate, h⟩ := h
  have htotal : statementTotal state.symbols = statementTotal symbols + state.added := by
    refine Except.foldlM_invariant
      (P := fun state => statementTotal state.symbols = statementTotal symbols + state.added)
      (fun s entry s' hstep hs => ?_) hstate rfl
    have hstep := applySymbol_total hstep
    omega
  split at h
  · cases h
  · cases h
    exact htotal

/-- Assumed statements are counted for the symbols they are added to, as long as these stand
in the table as they are given. -/
theorem foldlM_assumeFor_total {base : Path} {items : Availability}
    {entries : List (String × Symbol)} (increasing : KeysIncrease entries)
    {state state' : Table String Symbol × Nat}
    (present : ∀ entry ∈ entries, state.1.get? entry.1 = some entry.2)
    (h : entries.foldlM (assumeFor base items) state = .ok state') :
    statementTotal state'.1 + state.2 = statementTotal state.1 + state'.2 := by
  induction entries generalizing state with
  | nil =>
    rw [List.foldlM_nil, Except.pure_eq_ok_iff] at h
    subst h
    rfl
  | cons entry entries ih =>
    obtain ⟨hsymbol, hlater⟩ := List.forall_mem_cons.mp present
    simp only [List.foldlM_cons, assumeFor, Except.bind_eq_ok_iff, Except.pure_eq_ok_iff,
      Prod.exists] at h
    obtain ⟨_, _, ⟨extended, count, hextended, heq⟩, hrest⟩ := h
    obtain ⟨rfl, rfl⟩ := Prod.mk.inj heq
    have hpresent : ∀ later ∈ entries,
        (state.1.insert entry.1 extended).get? later.1 = some later.2 := by
      intro later hmem
      rw [Table.get?_insert_of_ne _ _ (increasing.ne_of_mem hmem), hlater later hmem]
    have htotal := ih (List.pairwise_cons.mp increasing).2 hpresent hrest
    have hfirst := statementTotal_insert hsymbol hextended
    dsimp only at htotal
    omega

/-- Assumptions add as many statements as they count. -/
theorem applyAssumed_total {base : Path} {symbols symbols' : Table String Symbol} {added : Nat}
    {assumed : List AssumedAvailability}
    (h : applyAssumed base symbols assumed = .ok (symbols', added)) :
    statementTotal symbols' = statementTotal symbols + added := by
  rw [applyAssumed] at h
  split at h
  · cases h
    rfl
  · exact foldlM_assumeFor_total symbols.increasing (fun _ hentry =>
      Table.mem_entries_iff.mp hentry) h

/-! ### Merged graphs -/

namespace MergedGraph

/-- Overlays add as many statements as they count. -/
theorem addOverlays_total {graph graph' : MergedGraph} {overlays : List UniqueGraph}
    {added : Nat} (h : (graph.addOverlays overlays).result = .ok (graph', added)) :
    statementTotal graph'.symbols = statementTotal graph.symbols + added := by
  induction overlays generalizing graph added with
  | nil =>
    cases h
    rfl
  | cons overlay overlays ih =>
    simp only [addOverlays, Traced.result_bind, Traced.result_ofExcept, Traced.result_note,
      Traced.result_pure, Except.bind_eq_ok_iff, Except.ok.injEq, Prod.mk.injEq,
      Prod.exists] at h
    obtain ⟨overlaid, hoverlaid, _, -, graph', later, hlater, rfl, rfl⟩ := h
    have hfirst := applyOverlay_total hoverlaid
    have hrest := ih hlater
    dsimp only at hrest
    omega

/-- Assumptions add as many statements as they count. -/
theorem addAssumed_total {graph graph' : MergedGraph} {assumptions : Assumptions} {added : Nat}
    (h : graph.addAssumed assumptions = .ok (graph', added)) :
    statementTotal graph'.symbols = statementTotal graph.symbols + added := by
  rw [addAssumed] at h
  cases hassumed : assumptions.get? graph.author with
  | none =>
    rw [hassumed] at h
    cases h
    rfl
  | some assumed =>
    simp only [hassumed, Except.map_eq_ok_iff, Prod.mk.injEq, Prod.exists] at h
    obtain ⟨symbols, count, hsymbols, rfl, rfl⟩ := h
    exact applyAssumed_total hsymbols

end MergedGraph

namespace Group

variable {group : Group} {role : Role} {assumptions : Assumptions} {m : MergedGraph}
  {tally : Tally}

/-- Merging a group applies its overlays, and adds as many statements as it counts. -/
theorem merge_total (h : (group.merge role assumptions).result = .ok (m, tally)) :
    tally.overlaysApplied = group.overlays.length ∧
      statementTotal m.symbols =
        statementTotal group.base.symbols + (tally.overlayItems + tally.assumedItems) := by
  simp only [merge, Traced.result_bind, Traced.result_ofExcept, Traced.result_pure,
    Except.bind_eq_ok_iff, Except.ok.injEq, Prod.mk.injEq, Prod.exists] at h
  obtain ⟨overlaid, added, hoverlaid, m, assumed, hassumed, rfl, rfl⟩ := h
  have hoverlays := MergedGraph.addOverlays_total hoverlaid
  have hassumptions := MergedGraph.addAssumed_total hassumed
  refine ⟨rfl, ?_⟩
  rw [UniqueGraph.asMerged] at hoverlays
  dsimp only at hoverlays ⊢
  omega

/-- The statements that merging a group adds are those that its symbols have gained. -/
theorem merge_gains (h : (group.merge role assumptions).result = .ok (m, tally)) :
    tally.overlayItems + tally.assumedItems =
        (m.symbols.keys.map (gainedUnder group.base.symbols m.symbols)).sum := by
  obtain ⟨-, htotal⟩ := merge_total h
  have hgained := (merge_eq_ok h).1.statementTotal_eq
  omega

end Group

end ApiSurface
