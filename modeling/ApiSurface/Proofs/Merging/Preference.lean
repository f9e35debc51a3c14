import ApiSurface.Proofs.Merging.UniqueSymbols
import ApiSurface.Proofs.Model.SymbolTexts
import ApiSurface.Proofs.Reading.Agreement
import Mathlib.Data.Prod.Lex
import Mathlib.Data.String.Basic

/-!
# Preferred symbols

Of the entries of a graph with one identifier the least is kept: entries without `async`
come before those with it, and among these alike the texts decide. Going through the entries
one by one keeps, at any time, the least of those met so far. Entries that have been read
and have the same text are the same, so there is no tie that the order of the entries could
break, and every order of them makes the same graph. The entries that are counted as dropped
are those beyond one for each identifier, also in every order.

## Main definitions

* `Symbol.rank`: what decides between symbols with one identifier.
* `IsLeastOf`, `HoldsLeast`: the least of some entries, and tables of them.
* `keepCounting`: collecting symbols with a count of those that are dropped.
* `UniqueGraph.IsOf`: what a unique graph has of a decoded one.

## Main results

* `HoldsLeast.keepPreferred`: an entry is added to a table of least entries.
* `holdsLeast_preferredSymbols`: the least entries are kept.
* `preferredSymbols_perm`: the order of entries that have been read does not matter.
* `foldl_keepCounting`: how many entries meet one with their identifier.
* `DecodedGraph.unique_isOf`: the whole graph.
-/

namespace ApiSurface

open Json Wire

/-! ### What decides -/

/-- What decides between symbols with one identifier: whether they are declared with
`async`, and then their texts. -/
def Symbol.rank (s : Symbol) : Bool ×ₗ String := toLex (s.isAsync, s.render)

/-- A symbol is kept in place of another one exactly if it has the smaller rank. -/
theorem Symbol.isPreferredTo_iff {candidate current : Symbol} :
    candidate.isPreferredTo current ↔ candidate.rank < current.rank := by
  rw [rank, rank, Prod.Lex.toLex_lt_toLex, isPreferredTo]
  cases candidate.isAsync <;> cases current.isAsync <;> simp [compare_lt_iff_lt]

/-- A symbol with `async` has no smaller rank than one without. -/
theorem Symbol.isAsync_of_rank_le {s t : Symbol} (h : s.rank ≤ t.rank) (hs : s.isAsync) :
    t.isAsync := by
  rw [rank, rank, Prod.Lex.toLex_le_toLex, hs] at h
  rcases h with hlt | ⟨heq, -⟩
  · exact absurd hlt (by simp)
  · exact heq.symm

/-! ### The least entries -/

/-- Whether a symbol is the least of the entries with an identifier. -/
structure IsLeastOf (entries : List Symbol) (precise : String) (s : Symbol) : Prop where
  mem : s ∈ entries
  named : s.precise = precise
  least : ∀ t ∈ entries, t.precise = precise → s.rank ≤ t.rank

/-- Whether a table holds, for each identifier among some entries, the least of these with
the identifier. -/
structure HoldsLeast (entries : List Symbol) (symbols : Table String Symbol) : Prop where
  least : ∀ precise s, symbols.get? precise = some s → IsLeastOf entries precise s
  missing : ∀ precise, symbols.get? precise = none → ∀ t ∈ entries, t.precise ≠ precise

section Least

variable {entries : List Symbol} {precise : String} {s candidate : Symbol}

/-- The least of some entries stays the least if an entry with another identifier is added,
or one that has no smaller rank. -/
theorem IsLeastOf.concat (h : IsLeastOf entries precise s)
    (hcandidate : candidate.precise = precise → s.rank ≤ candidate.rank) :
    IsLeastOf (entries ++ [candidate]) precise s where
  mem := List.mem_append_left _ h.mem
  named := h.named
  least := List.forall_mem_append.mpr ⟨h.least, List.forall_mem_singleton.mpr hcandidate⟩

/-- An entry that is added is the least if no entry before has a smaller rank. -/
theorem IsLeastOf.of_concat
    (h : ∀ t ∈ entries, t.precise = candidate.precise → candidate.rank ≤ t.rank) :
    IsLeastOf (entries ++ [candidate]) candidate.precise candidate where
  mem := List.mem_append_right _ List.mem_cons_self
  named := rfl
  least :=
    List.forall_mem_append.mpr ⟨h, List.forall_mem_singleton.mpr fun _ =>
      le_refl candidate.rank⟩

/-- An entry that is met is kept if it is preferred to the one that was kept before, or if
there was none. -/
theorem get?_keepPreferred (symbols : Table String Symbol) (candidate : Symbol)
    (precise : String) :
    (keepPreferred symbols candidate).get? precise =
      if precise = candidate.precise then
        some (match symbols.get? candidate.precise with
          | none => candidate
          | some current => if candidate.isPreferredTo current then candidate else current)
      else symbols.get? precise := by
  rw [keepPreferred, Table.alter]
  by_cases hprecise : precise = candidate.precise
  · rw [if_pos hprecise, hprecise]
    exact Table.get?_insert_self _ _ _
  · rw [if_neg hprecise, Table.get?_insert_of_ne _ _ hprecise]

/-- **One entry.** A table of least entries is one of least entries again when an entry
has been added. -/
theorem HoldsLeast.keepPreferred {symbols : Table String Symbol}
    (h : HoldsLeast entries symbols) (candidate : Symbol) :
    HoldsLeast (entries ++ [candidate]) (keepPreferred symbols candidate) := by
  constructor
  case least =>
    intro precise s hs
    rw [get?_keepPreferred] at hs
    split at hs
    case isTrue hprecise =>
      subst hprecise
      rw [Option.some.injEq] at hs
      subst hs
      cases hcurrent : symbols.get? candidate.precise with
      | none =>
        refine .of_concat fun t ht hprecise => ?_
        exact absurd hprecise (h.missing _ hcurrent t ht)
      | some current =>
        have hleast := h.least _ current hcurrent
        dsimp only
        split
        case isTrue hpreferred =>
          have hlt := Symbol.isPreferredTo_iff.mp hpreferred
          exact .of_concat fun t ht hprecise => hlt.le.trans (hleast.least t ht hprecise)
        case isFalse hpreferred =>
          have hle := not_lt.mp (mt Symbol.isPreferredTo_iff.mpr hpreferred)
          exact hleast.concat fun _ => hle
    case isFalse hprecise =>
      exact (h.least precise s hs).concat fun heq => absurd heq.symm hprecise
  case missing =>
    intro precise hnone
    rw [get?_keepPreferred] at hnone
    split at hnone
    case isTrue => cases hnone
    case isFalse hprecise =>
      have hcandidate : candidate.precise ≠ precise := fun heq => hprecise heq.symm
      exact List.forall_mem_append.mpr
        ⟨h.missing precise hnone, List.forall_mem_singleton.mpr hcandidate⟩

/-- The preferred symbols after an entry more. -/
theorem preferredSymbols_concat (entries : List Symbol) (candidate : Symbol) :
    preferredSymbols (entries ++ [candidate]) =
      keepPreferred (preferredSymbols entries) candidate := by
  rw [preferredSymbols, List.foldl_append]
  rfl

/-- **All entries.** The preferred symbols are the least entries with their identifiers. -/
theorem holdsLeast_preferredSymbols (entries : List Symbol) :
    HoldsLeast entries (preferredSymbols entries) := by
  -- The entries are met from the first to the last, so the induction adds one at the end.
  induction entries using List.reverseRecOn with
  | nil => exact ⟨nofun, fun _ _ => nofun⟩
  | append_singleton entries candidate ih =>
    rw [preferredSymbols_concat]
    exact ih.keepPreferred candidate

end Least

/-! ### The order of entries -/

/-- Tables of the least entries are equal if the entries only differ in their order, and no
two of them have the same rank without being the same. -/
theorem HoldsLeast.unique {entries entries' : List Symbol}
    {symbols symbols' : Table String Symbol} (h : HoldsLeast entries symbols)
    (h' : HoldsLeast entries' symbols') (perm : entries'.Perm entries)
    (told : ∀ s ∈ entries, ∀ t ∈ entries, s.rank = t.rank → s = t) : symbols' = symbols := by
  refine Table.ext_get? fun precise => ?_
  cases hs : symbols.get? precise with
  | none =>
    cases ht : symbols'.get? precise with
    | none => rfl
    | some t =>
      obtain ⟨hmem, hnamed, -⟩ := h'.least precise t ht
      exact absurd hnamed (h.missing precise hs t (perm.mem_iff.mp hmem))
  | some s =>
    obtain ⟨hmem, hnamed, hleast⟩ := h.least precise s hs
    cases ht : symbols'.get? precise with
    | none => exact absurd hnamed (h'.missing precise ht s (perm.mem_iff.mpr hmem))
    | some t =>
      obtain ⟨hmem', hnamed', hleast'⟩ := h'.least precise t ht
      have hle := hleast t (perm.mem_iff.mp hmem') hnamed'
      have hle' := hleast' s (perm.mem_iff.mpr hmem) hnamed
      rw [told s hmem t (perm.mem_iff.mp hmem') (le_antisymm hle hle')]

/-- Symbols that have been read and have the same rank are the same. -/
theorem Symbol.eq_of_rank_eq {s t : Symbol} (hs : s.IsDecoded) (ht : t.IsDecoded)
    (h : s.rank = t.rank) : s = t :=
  Symbol.render_injective hs ht (Prod.mk.inj (toLex.injective h)).2

/-- **Order of entries.** Entries that have been read make the same preferred symbols in
every order. -/
theorem preferredSymbols_perm {entries entries' : List Symbol}
    (decoded : ∀ s ∈ entries, s.IsDecoded) (perm : entries'.Perm entries) :
    preferredSymbols entries' = preferredSymbols entries :=
  (holdsLeast_preferredSymbols entries).unique (holdsLeast_preferredSymbols entries') perm
    fun s hs t ht heq => Symbol.eq_of_rank_eq (decoded s hs) (decoded t ht) heq

/-! ### Counting -/

/-- Adds a symbol to those collected, and counts it if one with its identifier is
there already. -/
def keepCounting (collected : Table String Symbol × Nat) (candidate : Symbol) :
    Table String Symbol × Nat :=
  (keepPreferred collected.1 candidate,
    if candidate.precise ∈ collected.1.keys then collected.2 + 1 else collected.2)

/-- As many identifiers are met with an entry more as before, and one more if its identifier
is a new one. -/
theorem card_precise_concat (entries : List Symbol) (candidate : Symbol) :
    ((entries ++ [candidate]).map Symbol.precise).toFinset.card =
      (entries.map Symbol.precise).toFinset.card +
        if candidate.precise ∈ entries.map Symbol.precise then 0 else 1 := by
  rw [List.map_append, List.map_singleton, List.toFinset_append, Finset.union_comm,
    List.toFinset_cons, List.toFinset_nil, Finset.insert_union, Finset.empty_union]
  split
  case isTrue hmet => rw [Finset.insert_eq_of_mem (List.mem_toFinset.mpr hmet), add_zero]
  case isFalse hnew => rw [Finset.card_insert_of_notMem (mt List.mem_toFinset.mp hnew)]

/-- **Counting.** The entries that meet one with their identifier are those beyond one for
each identifier. -/
theorem foldl_keepCounting (entries : List Symbol) :
    (entries.foldl keepCounting (.empty, 0)).1 = preferredSymbols entries ∧
      (entries.foldl keepCounting (.empty, 0)).2 + (entries.map Symbol.precise).toFinset.card =
        entries.length := by
  induction entries using List.reverseRecOn with
  | nil => exact ⟨rfl, rfl⟩
  | append_singleton entries candidate ih =>
    obtain ⟨hsymbols, hcount⟩ := ih
    rw [List.foldl_append, List.foldl_cons, List.foldl_nil, keepCounting, hsymbols,
      preferredSymbols_concat, card_precise_concat, List.length_append, List.length_singleton]
    refine ⟨rfl, ?_⟩
    simp only [mem_keys_preferredSymbols]
    split <;> omega

/-! ### Graphs -/

/-- The symbols of a graph that a plan decodes have been read. -/
theorem Plan.isDecoded_of_read {plan : Plan} {profile : Profile} {text : List UInt8}
    {g : SymbolGraph} (h : plan.read profile text = .ok g) : ∀ s ∈ g.symbols, s.IsDecoded := by
  intro s hs
  cases plan with
  | wholeFiles =>
    have hsymbols := GraphOf.symbols_of_decode (ofBytes_eq_ok_iff.mp h).1
    obtain ⟨node, -, hnode⟩ := Except.exists_of_forall₂ hsymbols hs
    exact ⟨_, node, hnode⟩
  | batchedSymbols =>
    obtain ⟨envelope, symbols, -, hsymbols, rfl⟩ := readGraphInBatches_eq_ok_iff.mp h
    obtain ⟨node, -, hnode⟩ := Except.exists_of_forall₂ hsymbols hs
    exact ⟨_, node, hnode⟩

/-- The decoded graph with its symbols in another order, or with others. -/
def DecodedGraph.withSymbols (decoded : DecodedGraph) (symbols : List Symbol) : DecodedGraph :=
  { decoded with graph := { decoded.graph with symbols } }

/-- Whether a graph has the least entries of a decoded graph, one for each identifier, and
everything else as it is there. -/
structure UniqueGraph.IsOf (graph : UniqueGraph) (decoded : DecodedGraph) : Prop where
  /-- There is a symbol for each identifier of an entry, and for no other. -/
  keys : ∀ precise, precise ∈ graph.symbols.keys ↔
    ∃ s ∈ decoded.graph.symbols, s.precise = precise
  /-- It is the least of the entries with the identifier. -/
  least : ∀ precise s, graph.symbols.get? precise = some s →
    IsLeastOf decoded.graph.symbols precise s
  /-- It is declared with `async` only if all of these are. -/
  async : ∀ precise s, graph.symbols.get? precise = some s → s.isAsync →
    ∀ t ∈ decoded.graph.symbols, t.precise = precise → t.isAsync
  /-- As many entries are dropped as meet one with their identifier, going through the
  entries one by one. -/
  counted : decoded.graph.symbols.foldl keepCounting (.empty, 0) =
    (graph.symbols, graph.collapsed)
  /-- They are the other entries. -/
  collapsed : graph.collapsed + (decoded.graph.symbols.map Symbol.precise).toFinset.card =
    decoded.graph.symbols.length
  path : graph.path = decoded.path
  name : graph.name = decoded.name
  metadata : graph.metadata = decoded.graph.metadata
  module : graph.module = decoded.graph.module
  relationships : graph.relationships = decoded.graph.relationships

/-- **Unique graphs.** A decoded graph has its least entries in its unique graph, and if
they have been read, then every order of them makes the same unique graph. The entries of a
graph that a plan reads have been read. -/
theorem DecodedGraph.unique_isOf (decoded : DecodedGraph) :
    decoded.unique.IsOf decoded ∧
      ((∀ s ∈ decoded.graph.symbols, s.IsDecoded) →
        ∀ symbols, symbols.Perm decoded.graph.symbols →
          (decoded.withSymbols symbols).unique = decoded.unique) ∧
      ∀ plan profile text, Plan.read plan profile text = .ok decoded.graph →
        ∀ s ∈ decoded.graph.symbols, s.IsDecoded := by
  have hholds := holdsLeast_preferredSymbols decoded.graph.symbols
  refine ⟨?_, ?_, fun plan profile text => Plan.isDecoded_of_read⟩
  · constructor
    case keys =>
      intro precise
      exact mem_keys_preferredSymbols.trans List.mem_map
    case least => exact hholds.least
    case async =>
      intro precise s hs hasync t ht hprecise
      exact Symbol.isAsync_of_rank_le ((hholds.least precise s hs).least t ht hprecise) hasync
    case counted =>
      obtain ⟨hsymbols, hcount⟩ := foldl_keepCounting decoded.graph.symbols
      have hcollapsed := decoded.collapsed_unique
      exact Prod.ext hsymbols (by omega)
    case collapsed => exact decoded.collapsed_unique
    all_goals rfl
  · intro hdecoded symbols hperm
    have hsymbols := preferredSymbols_perm hdecoded hperm
    simp only [DecodedGraph.unique, DecodedGraph.withSymbols, hsymbols, hperm.length_eq]

/-- A text with a graph of two entries with one identifier, of which the one with the
smaller text is declared with `async`. -/
def collidingText : List UInt8 :=
  Text.bytes ("[[[1],\"g\"],[\"M\"],[" ++
    "\x7b\"identifier\":[\"p\",\"s\"],\"kind\":[\"k\",\"d\"]," ++
    "\"declarationFragments\":[\x7b\"kind\":\"keyword\",\"spelling\":\"async\"\x7d]\x7d," ++
    "\x7b\"identifier\":[\"p\",\"s\"],\"kind\":[\"k\",\"d\"],\"x\":1\x7d]]")

/-- An entry without `async` is kept in place of one with a smaller text, in either order. -/
theorem DecodedGraph.unique_isOf_collision :
    ∃ decoded : DecodedGraph, SymbolGraph.shape.ofBytes collidingText = .ok decoded.graph ∧
      (decoded.unique.symbols.entries.map fun entry =>
          (entry.1, entry.2.mixins.entries.map fun mixin => (mixin.1, mixin.2.render))) =
        [("p", [("x", "1")])] ∧
      decoded.unique.collapsed = 1 ∧
      (decoded.withSymbols decoded.graph.symbols.reverse).unique = decoded.unique := by
  have hread : ∃ g, SymbolGraph.shape.ofBytes collidingText = .ok g ∧
      ((DecodedGraph.unique ⟨.ofText "M.symbols.json", .main "M", g⟩).symbols.entries.map
        fun entry =>
          (entry.1, entry.2.mixins.entries.map fun mixin => (mixin.1, mixin.2.render))) =
        [("p", [("x", "1")])] ∧
      (DecodedGraph.unique ⟨.ofText "M.symbols.json", .main "M", g⟩).collapsed = 1 := by
    decide +kernel
  obtain ⟨g, hg, hkept, hcollapsed⟩ := hread
  obtain ⟨-, hperm, hdecoded⟩ :=
    DecodedGraph.unique_isOf ⟨.ofText "M.symbols.json", .main "M", g⟩
  have hsymbols := hdecoded .wholeFiles ⟨true, 1, 1⟩ collidingText hg
  exact ⟨_, hg, hkept, hcollapsed, hperm hsymbols _ (List.reverse_perm _)⟩

end ApiSurface
