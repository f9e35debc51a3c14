import ApiSurface.Merging.UniqueGraph
import ApiSurface.Proofs.Tables

/-!
# Symbols with unique identifiers

Of the entries of a graph one is kept for each identifier, and stands under that identifier.
So as many entries are kept as there are identifiers, and the others are those that are
counted as dropped.

## Main results

* `KeyedByPrecise`, `preferredSymbols_keyed`: each symbol stands under its own identifier.
* `mem_keys_preferredSymbols`, `size_preferredSymbols`: the identifiers
  that symbols are kept for.
* `DecodedGraph.collapsed_unique`: how many entries are dropped.
-/

namespace ApiSurface

/-- Whether each symbol of a table stands under its own identifier. -/
def KeyedByPrecise (symbols : Table String Symbol) : Prop :=
  ∀ precise s, symbols.get? precise = some s → s.precise = precise

/-- Putting a symbol under its own identifier. -/
theorem KeyedByPrecise.insert {symbols : Table String Symbol} (h : KeyedByPrecise symbols)
    {s : Symbol} {precise : String} (hs : s.precise = precise) :
    KeyedByPrecise (symbols.insert precise s) := by
  intro precise' s' hs'
  by_cases hprecise : precise' = precise
  · rw [hprecise, Table.get?_insert_self, Option.some.injEq] at hs'
    rw [← hs', hs, hprecise]
  · rw [Table.get?_insert_of_ne _ _ hprecise] at hs'
    exact h precise' s' hs'

/-- An entry is kept under its identifier, or one that stands there already stays. -/
theorem KeyedByPrecise.keepPreferred {symbols : Table String Symbol}
    (h : KeyedByPrecise symbols) (candidate : Symbol) :
    KeyedByPrecise (keepPreferred symbols candidate) := by
  refine h.insert ?_
  cases hcurrent : symbols.get? candidate.precise with
  | none => rfl
  | some current =>
    dsimp only
    split
    · rfl
    · exact h _ current hcurrent

/-- Preferred symbols stand under their own identifiers. -/
theorem preferredSymbols_keyed (entries : List Symbol) :
    KeyedByPrecise (preferredSymbols entries) := by
  have hfold (symbols : Table String Symbol) (h : KeyedByPrecise symbols) :
      KeyedByPrecise (entries.foldl keepPreferred symbols) := by
    induction entries generalizing symbols with
    | nil => exact h
    | cons entry entries ih => exact ih _ (h.keepPreferred entry)
  exact hfold .empty nofun

/-- There is a preferred symbol for the identifier of each entry, and for no other. -/
theorem mem_keys_preferredSymbols {entries : List Symbol} {precise : String} :
    precise ∈ (preferredSymbols entries).keys ↔ precise ∈ entries.map Symbol.precise := by
  have hfold (symbols : Table String Symbol) :
      precise ∈ (entries.foldl keepPreferred symbols).keys ↔
      precise ∈ entries.map Symbol.precise ∨ precise ∈ symbols.keys := by
    induction entries generalizing symbols with
    | nil => simp
    | cons entry entries ih =>
      rw [List.foldl_cons, ih, keepPreferred, Table.alter, Table.mem_keys_insert,
        List.map_cons, List.mem_cons]
      tauto
  rw [preferredSymbols, hfold, or_iff_left]
  exact List.not_mem_nil

/-- As many symbols are preferred as there are identifiers. -/
theorem size_preferredSymbols (entries : List Symbol) :
    (preferredSymbols entries).size = (entries.map Symbol.precise).toFinset.card :=
  Table.size_eq_card fun _ => mem_keys_preferredSymbols

/-- The entries of a graph are those that are dropped, and one for each identifier. -/
theorem DecodedGraph.collapsed_unique (decoded : DecodedGraph) :
    decoded.unique.collapsed + (decoded.graph.symbols.map Symbol.precise).toFinset.card =
      decoded.graph.symbols.length := by
  have hle :
      (decoded.graph.symbols.map Symbol.precise).toFinset.card ≤
        decoded.graph.symbols.length :=
    (List.toFinset_card_le _).trans_eq (List.length_map _)
  have hcollapsed : decoded.unique.collapsed =
      decoded.graph.symbols.length - (preferredSymbols decoded.graph.symbols).size := rfl
  rw [hcollapsed, size_preferredSymbols]
  omega

end ApiSurface
