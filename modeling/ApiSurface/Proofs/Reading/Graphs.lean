import ApiSurface.Proofs.Reading.Nesting
import ApiSurface.Proofs.Reading.Passing
import ApiSurface.Reading.Decoder

/-!
# Symbol graphs, as a whole and in batches

A graph is read as a whole, or its envelope first and its symbols one by one after that. The
two ways see the same symbols under different conditions. As part of a whole a symbol stands
inside two other brackets, which count towards the bound on nesting; on its own it does not.
On the other hand the envelope checks the encoding of all that is in a symbol, even of what
the symbol itself passes over.

## Main results

* `GraphOf.symbols_of_decode`, `GraphOf.decode_with_symbols`: reading a graph is reading its
  symbols, and something that does not depend on how symbols are written.
* `readBatches_eq_mapM`: reading in batches is reading one symbol after the other.
-/

namespace ApiSurface

open Json Wire

/-! ### The symbols of a graph -/

/-- The items of an array that is the only value of a field. -/
def listedItems : List Node → List Node
  | [.array _ items] => items.nodes?.getD []
  | _ => []

/-- The nodes that stand for the symbols of a graph. -/
def Json.Node.symbolEntries : Node → List Node
  | .object _ members => listedItems (under "symbols" (members.entries?.getD []))
  | .array _ items => listedItems (((items.nodes?.getD []).drop 2).take 1)
  | _ => []

/-- Leaving out the members under another key does not change what stands under a key. -/
theorem under_besides {key key' : String} (h : key ≠ key') (entries : List (String × Node)) :
    under key (besides key' entries) = under key entries := by
  rw [under, under, besides, List.filter_filter]
  congr 1
  refine List.filter_congr fun entry _ => ?_
  by_cases hkey : entry.1 = key
  · simp [hkey, h]
  · simp [hkey]

/-- A field with a list that may be missing gives what the items listed for it give. -/
theorem forall₂_of_gives_list {α : Type} {depth inner : Depth}
    (enter : ∀ start, depth.enter start = .ok inner) {item : Shape α} {nodes : List Node}
    {as : List α} (h : Gives ((Shape.list item).decode depth) [] nodes as) :
    List.Forall₂ (fun node a => item.decode inner node = .ok a) (listedItems nodes) as := by
  obtain ⟨rfl, rfl⟩ | ⟨node, rfl, hlist⟩ := h
  · exact .nil
  · obtain ⟨start, items, _, nodes, rfl, henter, hnodes, has⟩ := Shape.decode_list_iff.mp hlist
    rw [enter start, Except.ok.injEq] at henter
    subst henter
    simpa [listedItems, hnodes] using has

/-- A field with a list is read also if its items are written in another way. -/
theorem gives_list_with {α β : Type} {depth inner : Depth}
    (enter : ∀ start, depth.enter start = .ok inner) {item : Shape α} {item' : Shape β}
    {nodes : List Node} {as : List α} {bs : List β}
    (h : Gives ((Shape.list item).decode depth) [] nodes as)
    (h' : List.Forall₂ (fun node b => item'.decode inner node = .ok b)
      (listedItems nodes) bs) :
    Gives ((Shape.list item').decode depth) [] nodes bs := by
  obtain ⟨rfl, rfl⟩ | ⟨node, rfl, hlist⟩ := h
  · cases h'
    exact .inl ⟨rfl, rfl⟩
  · obtain ⟨start, items, _, nodes, rfl, -, hnodes, -⟩ := Shape.decode_list_iff.mp hlist
    refine .inr ⟨_, rfl, Shape.decode_list_iff.mpr ⟨start, items, inner, nodes, rfl,
      enter start, hnodes, ?_⟩⟩
    simpa [listedItems, hnodes] using h'

/-- What a value may nest as a symbol of a graph: the graph and its list of symbols
stand around it. -/
def symbolDepth : Depth := .upTo 126

/-- Two levels below a text the symbols of a graph stand. -/
theorem enter_symbols (start : Nat) : (Depth.upTo 127).enter start = .ok symbolDepth := rfl

section Parts

variable {σ τ : Type} {name : String} {symbol : Shape σ} {symbol' : Shape τ} {node : Node}
  {g : GraphOf σ}

/-- The symbols of a graph are read from the nodes that stand for them. -/
theorem GraphOf.symbols_of_decode
    (h : (GraphOf.shape name symbol).decode .ofText node = .ok g) :
    List.Forall₂ (fun node s => symbol.decode symbolDepth node = .ok s) node.symbolEntries
      g.symbols := by
  obtain ⟨start, inner, values, henter, rfl, hnode⟩ := Shape.decode_record_iff.mp h
  cases henter
  obtain ⟨members, entries, left, rfl, hentries, hreads, -⟩ |
    ⟨items, nodes, rfl, hnodes, hreads⟩ := hnode
  · obtain ⟨-, -, hsymbols, -⟩ := hreads
    rw [under_besides (by decide), under_besides (by decide)] at hsymbols
    rw [Node.symbolEntries, hentries, Option.getD_some]
    exact forall₂_of_gives_list enter_symbols hsymbols
  · obtain ⟨-, -, hsymbols, -⟩ := hreads
    rw [List.drop_drop] at hsymbols
    rw [Node.symbolEntries, hnodes, Option.getD_some]
    exact forall₂_of_gives_list enter_symbols hsymbols

/-- A graph is read also if its symbols are written in another way, with the symbols read
in that way. -/
theorem GraphOf.decode_with_symbols (name' : String)
    (h : (GraphOf.shape name symbol).decode .ofText node = .ok g)
    {symbols : List τ}
    (h' : List.Forall₂ (fun node s => symbol'.decode symbolDepth node = .ok s)
      node.symbolEntries symbols) :
    (GraphOf.shape name' symbol').decode .ofText node =
      .ok ⟨g.metadata, g.module, symbols, g.relationships⟩ := by
  obtain ⟨start, inner, values, henter, rfl, hnode⟩ := Shape.decode_record_iff.mp h
  cases henter
  refine Shape.decode_record_iff.mpr ⟨start, .upTo 127,
    (values.1, values.2.1, symbols, values.2.2.2.1, ()), rfl, rfl, ?_⟩
  obtain ⟨members, entries, left, rfl, hentries, hreads, hskip⟩ |
    ⟨items, nodes, rfl, hnodes, hreads⟩ := hnode
  · obtain ⟨hmetadata, hmodule, hsymbols, hrest⟩ := hreads
    refine .inl ⟨members, entries, left, rfl, hentries, ⟨hmetadata, hmodule, ?_, hrest⟩, hskip⟩
    rw [Node.symbolEntries, hentries, Option.getD_some] at h'
    refine gives_list_with enter_symbols hsymbols ?_
    rwa [under_besides (by decide), under_besides (by decide)]
  · obtain ⟨hmetadata, hmodule, hsymbols, hrest⟩ := hreads
    refine .inr ⟨items, nodes, rfl, hnodes, hmetadata, hmodule, ?_, hrest⟩
    rw [Node.symbolEntries, hnodes, Option.getD_some] at h'
    refine gives_list_with enter_symbols hsymbols ?_
    rwa [List.drop_drop]

end Parts

/-! ### Symbols left as they stand -/

/-- A node is left as it stands if its form and its encoding are in order. -/
theorem decode_raw_iff {depth : Depth} {node kept : Node} :
    Shape.raw.decode depth node = .ok kept ↔
      node.skip = .ok () ∧ node.flaw = none ∧ node = kept := by
  simp only [Shape.decode, Except.bind_eq_ok_iff]
  cases node.flaw with
  | none =>
    simp only [Except.pure_eq_ok_iff, true_and]
    constructor
    · rintro ⟨_, hskip, rfl⟩
      exact ⟨hskip, rfl⟩
    · rintro ⟨hskip, rfl⟩
      exact ⟨(), hskip, rfl⟩
  | some place => simp

/-! ### Batches -/

/-- The batches of a list, joined, are the list. -/
theorem flatten_batches {α : Type} (size : Nat) (as : List α) :
    (batches size as).flatten = as := by
  fun_induction batches size as with
  | case1 => rfl
  | case2 a rest ih => simp [ih]

/-- Reading in batches is reading one symbol after the other. -/
theorem readBatches_eq_mapM (size : Nat) (nodes : List Node) :
    readBatches size nodes = nodes.mapM readSymbol := by
  rw [readBatches, Except.mapM_flatten, flatten_batches]

end ApiSurface
