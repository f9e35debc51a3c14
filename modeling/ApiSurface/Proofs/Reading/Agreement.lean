import ApiSurface.Proofs.Reading.Graphs
import ApiSurface.Proofs.Reading.Plans

/-!
# Where the two plans agree

Decoding as a whole and decoding in batches give the same graphs or fail together, except in
two cases. A text whose symbols nest too deeply as part of the text, but not on their own,
is decoded in batches only. A text that has bytes of no character in the passed-over parts
of a symbol is decoded as a whole only. The theorems here say that these are all the cases,
for one text and for all sources of a load.

## Main results

* `readGraphInBatches_iff_of_whole`, `whole_iff_of_readGraphInBatches`: one text, seen
  from either way.
* `Plan.decode_agree_iff`: the sources for which the two plans agree are exactly those
  without the two cases.
-/

namespace ApiSurface

open Json Wire

/-! ### The two cases -/

/-- Whether the bytes of all symbols of a text belong to characters. -/
def SymbolsAreText (text : List UInt8) : Prop :=
  ∀ entry ∈ (Document.ofBytes text).root.symbolEntries, entry.flaw = none

/-- Whether no symbol of a text nests more deeply than a text may inside of two brackets. -/
def SymbolsAreShallow (text : List UInt8) : Prop :=
  ∀ entry ∈ (Document.ofBytes text).root.symbolEntries, Symbol.shape.nesting entry ≤ 125

instance (text : List UInt8) : Decidable (SymbolsAreText text) :=
  inferInstanceAs (Decidable (∀ entry ∈ (Document.ofBytes text).root.symbolEntries,
    entry.flaw = none))

instance (text : List UInt8) : Decidable (SymbolsAreShallow text) :=
  inferInstanceAs (Decidable
    (∀ entry ∈ (Document.ofBytes text).root.symbolEntries, Symbol.shape.nesting entry ≤ 125))

/-! ### One text -/

/-- A symbol is read as part of a text exactly if it is read on its own and is
shallow enough. -/
theorem decode_symbolDepth_iff {node : Node} {symbol : Symbol} :
    Symbol.shape.decode symbolDepth node = .ok symbol ↔
      Symbol.shape.nesting node ≤ 125 ∧ readSymbol node = .ok symbol := by
  have hsymbol : symbolDepth.Admits (Symbol.shape.nesting node) ↔
      Symbol.shape.nesting node < 126 := .rfl
  have htext : Depth.ofText.Admits (Symbol.shape.nesting node) ↔
      Symbol.shape.nesting node < 128 := .rfl
  rw [readSymbol, Shape.decode_iff_unbounded (show symbolDepth.Admits 0 from Nat.succ_pos 125),
    Shape.decode_iff_unbounded (show Depth.ofText.Admits 0 from Nat.succ_pos 127),
    hsymbol, htext]
  constructor
  · rintro ⟨hread, hnest⟩
    exact ⟨by omega, hread, by omega⟩
  · rintro ⟨hnest, hread, -⟩
    exact ⟨hread, by omega⟩

/-- Reading in batches succeeds with a graph exactly if the envelope is read, and each of
its symbols. -/
theorem readGraphInBatches_eq_ok_iff {size : Nat} {text : List UInt8} {g : SymbolGraph} :
    readGraphInBatches size text = .ok g ↔
      ∃ envelope symbols, Envelope.shape.ofBytes text = .ok envelope ∧
        List.Forall₂ (fun node s => readSymbol node = .ok s) envelope.symbols symbols ∧
        { envelope with symbols } = g := by
  simp only [readGraphInBatches, Except.bind_eq_ok_iff, readBatches_eq_mapM,
    ← Except.mapM_eq_ok_iff]
  refine exists_congr fun envelope => ?_
  cases envelope.symbols.mapM readSymbol with
  | ok symbols => simp
  | error fault => cases SymbolGraph.shape.ofBytes text <;> simp

/-- The symbols of an envelope are the nodes that stand for them, of which each is
well-formed text. -/
theorem symbols_of_envelope {node : Node} {envelope : Envelope}
    (h : Envelope.shape.decode .ofText node = .ok envelope) :
    node.symbolEntries = envelope.symbols ∧
      ∀ entry ∈ node.symbolEntries, entry.flaw = none := by
  have hsymbols := GraphOf.symbols_of_decode h
  simp only [decode_raw_iff] at hsymbols
  generalize node.symbolEntries = entries, envelope.symbols = kept at hsymbols
  induction hsymbols with
  | nil => simp
  | cons hentry _ ih =>
    obtain ⟨-, hflaw, rfl⟩ := hentry
    obtain ⟨rfl, hrest⟩ := ih
    exact ⟨rfl, List.forall_mem_cons.mpr ⟨hflaw, hrest⟩⟩

variable {size : Nat} {text : List UInt8} {g : SymbolGraph}

/-- A text that is read as a whole is read in batches exactly if its symbols are
text throughout. -/
theorem readGraphInBatches_iff_of_whole (h : SymbolGraph.shape.ofBytes text = .ok g) :
    readGraphInBatches size text = .ok g ↔ SymbolsAreText text := by
  obtain ⟨hroot, hsurplus⟩ := ofBytes_eq_ok_iff.mp h
  have hsymbols := GraphOf.symbols_of_decode hroot
  rw [readGraphInBatches_eq_ok_iff]
  constructor
  · rintro ⟨envelope, symbols, henvelope, -⟩
    exact (symbols_of_envelope (ofBytes_eq_ok_iff.mp henvelope).1).2
  · intro htext
    have hraw : List.Forall₂ (fun node kept => Shape.raw.decode symbolDepth node = .ok kept)
        (Document.ofBytes text).root.symbolEntries
          (Document.ofBytes text).root.symbolEntries := by
      rw [List.forall₂_same]
      intro entry hentry
      have hskip := skip_of_forall₂ id Symbol.shape.skip_of_decode hsymbols entry hentry
      exact decode_raw_iff.mpr ⟨hskip, htext entry hentry, rfl⟩
    have henvelope := GraphOf.decode_with_symbols "Envelope" hroot hraw
    exact ⟨_, g.symbols, ofBytes_eq_ok_iff.mpr ⟨henvelope, hsurplus⟩,
      hsymbols.imp fun _ _ h => (decode_symbolDepth_iff.mp h).2, rfl⟩

/-- A text that is read in batches is read as a whole exactly if its symbols are
shallow enough. -/
theorem whole_iff_of_readGraphInBatches (h : readGraphInBatches size text = .ok g) :
    SymbolGraph.shape.ofBytes text = .ok g ↔ SymbolsAreShallow text := by
  obtain ⟨envelope, symbols, henvelope, hsymbols, rfl⟩ := readGraphInBatches_eq_ok_iff.mp h
  obtain ⟨hroot, hsurplus⟩ := ofBytes_eq_ok_iff.mp henvelope
  rw [← (symbols_of_envelope hroot).1] at hsymbols
  rw [ofBytes_eq_ok_iff, and_iff_left hsurplus]
  constructor
  · intro hwhole
    have hwhole := GraphOf.symbols_of_decode hwhole
    simp only [decode_symbolDepth_iff] at hwhole
    exact ((List.forall₂_and_left _ _).mp hwhole).1
  · intro hshallow
    refine GraphOf.decode_with_symbols "SymbolGraph" hroot ?_
    simp only [decode_symbolDepth_iff]
    exact (List.forall₂_and_left _ _).mpr ⟨hshallow, hsymbols⟩

/-! ### All sources -/

/-- Whether the text of a request has a property, if there is a text. -/
def Request.TextHas (request : Request) (disk : Disk) (property : List UInt8 → Prop) : Prop :=
  ∀ text, request.source.read disk = .ok text → property text

/-- Two ways of reading that agree on a text where one of them reads it, under a condition,
agree on a request under that condition. -/
theorem Request.decodeBy_iff_of_decodeBy {request : Request} {disk : Disk}
    {decoded : DecodedGraph} {read read' : List UInt8 → Except Diagnostic SymbolGraph}
    {property : List UInt8 → Prop}
    (each : ∀ text g, read text = .ok g → (read' text = .ok g ↔ property text))
    (h : request.decodeBy disk read = .ok decoded) :
    request.decodeBy disk read' = .ok decoded ↔ request.TextHas disk property := by
  obtain ⟨text, g, htext, hg, rfl⟩ := decodeBy_eq_ok_iff.mp h
  rw [decodeBy_eq_ok_iff]
  constructor
  · rintro ⟨text', g', htext', hg', hdecoded⟩ text'' htext''
    rw [htext, Except.ok.injEq] at htext' htext''
    subst htext' htext''
    cases hdecoded
    exact (each text g hg).mp hg'
  · intro hproperty
    exact ⟨text, g, htext, (each text g hg).mpr (hproperty text htext), rfl⟩

namespace Plan

variable {p q : Profile} {disk : Disk} {requests : List Request} {decoded : List DecodedGraph}

/-- Sources that are decoded as a whole are decoded in batches exactly if their
symbols are text. -/
theorem batched_iff_of_whole
    (h : (Plan.wholeFiles.decode q disk requests).result = .ok decoded) :
    (Plan.batchedSymbols.decode p disk requests).result = .ok decoded ↔
      ∀ request ∈ requests, request.TextHas disk SymbolsAreText := by
  rw [decode_eq_ok_iff] at h ⊢
  refine Except.forall₂_iff_forall (fun request d hd => ?_) h
  exact Request.decodeBy_iff_of_decodeBy (fun _ _ => readGraphInBatches_iff_of_whole) hd

/-- Sources that are decoded in batches are decoded as a whole exactly if their symbols are
shallow enough. -/
theorem whole_iff_of_batched
    (h : (Plan.batchedSymbols.decode p disk requests).result = .ok decoded) :
    (Plan.wholeFiles.decode q disk requests).result = .ok decoded ↔
      ∀ request ∈ requests, request.TextHas disk SymbolsAreShallow := by
  rw [decode_eq_ok_iff] at h ⊢
  refine Except.forall₂_iff_forall (fun request d hd => ?_) h
  exact Request.decodeBy_iff_of_decodeBy (fun _ _ => whole_iff_of_readGraphInBatches) hd

/-- **Where the plans agree.** For all sources of a load, decoding in batches and decoding
as a whole give the same graphs, or both fail, exactly if two conditions are met: sources
that can be decoded as a whole have symbols that are text throughout, and sources that can
be decoded in batches have symbols that are shallow enough. How many workers there are, and
how large the batches, does not matter. -/
theorem decode_agree_iff (p q : Profile) (disk : Disk) (requests : List Request) :
    (∀ decoded, (Plan.batchedSymbols.decode p disk requests).result = .ok decoded ↔
        (Plan.wholeFiles.decode q disk requests).result = .ok decoded) ↔
      ((∃ decoded, (Plan.wholeFiles.decode q disk requests).result = .ok decoded) →
        ∀ request ∈ requests, request.TextHas disk SymbolsAreText) ∧
      ((∃ decoded, (Plan.batchedSymbols.decode p disk requests).result = .ok decoded) →
        ∀ request ∈ requests, request.TextHas disk SymbolsAreShallow) := by
  constructor
  · intro agree
    constructor
    · rintro ⟨decoded, hwhole⟩
      exact (batched_iff_of_whole hwhole).mp ((agree decoded).mpr hwhole)
    · rintro ⟨decoded, hbatched⟩
      exact (whole_iff_of_batched hbatched).mp ((agree decoded).mp hbatched)
  · rintro ⟨htext, hshallow⟩ decoded
    constructor
    · intro hbatched
      exact (whole_iff_of_batched hbatched).mpr (hshallow ⟨decoded, hbatched⟩)
    · intro hwhole
      exact (batched_iff_of_whole hwhole).mpr (htext ⟨decoded, hwhole⟩)

/-! ### A text that nests -/

/-- A text with one symbol, of which a payload is made of arrays that nest
as deeply as given. -/
def nestedText (levels : Nat) : List UInt8 :=
  Text.bytes
    "[[[1],\"g\"],[\"M\"],[\x7b\"identifier\":[\"p\",\"s\"],\"kind\":[\"k\",\"d\"],\"x\":" ++
    (List.replicate levels 91 ++ List.replicate levels 93) ++ Text.bytes "\x7d]]"

/-- A request for such a text. -/
def nestedRequest (levels : Nat) : Request :=
  ⟨⟨.ofText "M.symbols.json", some (nestedText levels)⟩, .main "M"⟩

/-- A payload that nests 125 deep, in a symbol in the symbols of a graph, is too deep for
the text, but not for the symbol alone: the plans disagree. -/
theorem decode_nested_disagree :
    ¬ ∀ decoded,
      (Plan.batchedSymbols.decode ⟨true, 1, 1⟩ ⟨.emptyDirectory, []⟩
          [nestedRequest 125]).result = .ok decoded ↔
        (Plan.wholeFiles.decode ⟨true, 1, 1⟩ ⟨.emptyDirectory, []⟩
          [nestedRequest 125]).result = .ok decoded := by
  have hbatched : (Plan.batchedSymbols.decode ⟨true, 1, 1⟩ ⟨.emptyDirectory, []⟩
      [nestedRequest 125]).result.toBool = true := by decide +kernel
  have hwhole : (Plan.wholeFiles.decode ⟨true, 1, 1⟩ ⟨.emptyDirectory, []⟩
      [nestedRequest 125]).result.toBool = false := by decide +kernel
  intro agree
  cases h : (Plan.batchedSymbols.decode ⟨true, 1, 1⟩ ⟨.emptyDirectory, []⟩
      [nestedRequest 125]).result with
  | error fault => simp [h, Except.toBool] at hbatched
  | ok decoded => simp [(agree decoded).mp h, Except.toBool] at hwhole

end Plan

end ApiSurface
