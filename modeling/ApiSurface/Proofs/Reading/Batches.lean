import ApiSurface.Proofs.Reading.Agreement

/-!
# Batches

The symbols of a text are read in batches, and several workers may share the batches. How
large the batches are, how many workers there are, and which of them comes first to a symbol
that cannot be read, decides nothing about the result. If all symbols can be read, they are
joined in their order. If one cannot be read on its own, then neither can the text as a
whole, and the fault of the whole is what is reported, so the fault that a worker happened
to meet is never seen.

## Main definitions

* `BatchesGive`: what workers that share the batches of some symbols can come to.
* `EndsInBatches`: how reading a text in batches can end.

## Main results

* `whole_error_of_symbol`: a symbol that cannot be read on its own cannot be read in
  its place either.
* `endsInBatches_iff`: reading in batches ends in one way.
* `Plan.decode_batches_hidden`: the sources of a load.
-/

namespace ApiSurface

open Json Wire

/-! ### Batches of a list -/

/-- A batch has a member, and no more than there may be. -/
theorem length_of_mem_batches {α : Type} {size : Nat} {as batch : List α}
    (h : batch ∈ batches size as) : 0 < batch.length ∧ batch.length ≤ max size 1 := by
  fun_induction batches size as with
  | case1 => cases h
  | case2 a rest ih =>
    obtain rfl | hlater := List.mem_cons.mp h
    · rw [List.length_cons, List.length_take]
      omega
    · exact ih hlater

/-! ### Workers -/

/-- A step for each member of a list fails with the fault of a member. -/
theorem exists_fault_of_mapM {ε α β : Type} {f : α → Except ε β} {as : List α} {e : ε}
    (h : as.mapM f = .error e) : ∃ a ∈ as, f a = .error e := by
  obtain ⟨before, a, after, rfl, -, ha⟩ := Except.mapM_eq_error_iff.mp h
  exact ⟨a, List.mem_append_right _ List.mem_cons_self, ha⟩

/-- What workers that share the batches of some symbols can come to: all symbols in their
order if each batch can be read, and otherwise the fault of any batch that cannot be read,
since it is not said which of them is met first. -/
inductive BatchesGive (size : Nat) (nodes : List Node) : Except Fault (List Symbol) → Prop
  | symbols {read : List (List Symbol)} :
      List.Forall₂ (fun batch symbols => batch.mapM readSymbol = .ok symbols)
        (batches size nodes) read →
      BatchesGive size nodes (.ok read.flatten)
  | fault {batch : List Node} {fault : Fault} :
      batch ∈ batches size nodes → batch.mapM readSymbol = .error fault →
      BatchesGive size nodes (.error fault)

section Workers

variable {size : Nat} {nodes : List Node} {symbols : List Symbol} {fault : Fault}

/-- Workers come to what reading the batches one after the other gives, among other things. -/
theorem batchesGive_readBatches (size : Nat) (nodes : List Node) :
    BatchesGive size nodes (readBatches size nodes) := by
  rw [readBatches]
  cases h : (batches size nodes).mapM fun batch => batch.mapM readSymbol with
  | ok read => exact .symbols (Except.mapM_eq_ok_iff.mp h)
  | error fault =>
    obtain ⟨batch, hbatch, hfault⟩ := exists_fault_of_mapM h
    exact .fault hbatch hfault

/-- Workers come to all symbols only if each symbol can be read, and then in their order. -/
theorem BatchesGive.mapM_eq_ok (h : BatchesGive size nodes (.ok symbols)) :
    nodes.mapM readSymbol = .ok symbols := by
  cases h with
  | symbols hread =>
    rw [← readBatches_eq_mapM size, readBatches, Except.mapM_eq_ok_iff.mpr hread]
    rfl

/-- Workers come to a fault only if a symbol has it. -/
theorem BatchesGive.exists_fault (h : BatchesGive size nodes (.error fault)) :
    ∃ node ∈ nodes, readSymbol node = .error fault := by
  cases h with
  | fault hbatch hfault =>
    obtain ⟨node, hnode, hread⟩ := exists_fault_of_mapM hfault
    refine ⟨node, ?_, hread⟩
    rw [← flatten_batches size nodes]
    exact List.mem_flatten_of_mem hbatch hnode

end Workers

/-! ### One text -/

/-- The graph of a text whose envelope has been read, once it is known what the batches
have come to. -/
def Envelope.finish (envelope : Envelope) (text : List UInt8) :
    Except Fault (List Symbol) → Except Diagnostic SymbolGraph
  | .ok symbols => .ok { envelope with symbols }
  | .error fault =>
    match SymbolGraph.shape.ofBytes text with
    | .error diagnostic => .error diagnostic
    | .ok _ => .error (fault.locate text)

/-- How reading a text in batches can end: with the fault of the envelope, or as workers
come to something. -/
inductive EndsInBatches (size : Nat) (text : List UInt8) : Except Diagnostic SymbolGraph → Prop
  | envelope {diagnostic : Diagnostic} :
      Envelope.shape.ofBytes text = .error diagnostic →
        EndsInBatches size text (.error diagnostic)
  | batches {envelope : Envelope} {given : Except Fault (List Symbol)} :
      Envelope.shape.ofBytes text = .ok envelope → BatchesGive size envelope.symbols given →
      EndsInBatches size text (envelope.finish text given)

section Text

variable {size : Nat} {text : List UInt8} {envelope : Envelope} {node : Node} {fault : Fault}

/-- Reading in batches, after the envelope has been read. -/
theorem readGraphInBatches_of_envelope (size : Nat)
    (h : Envelope.shape.ofBytes text = .ok envelope) :
    readGraphInBatches size text =
      envelope.finish text (envelope.symbols.mapM readSymbol) := by
  rw [readGraphInBatches, h, Except.ok_bind, readBatches_eq_mapM]
  cases envelope.symbols.mapM readSymbol <;> rfl

/-- Reading in batches, if the envelope cannot be read. -/
theorem readGraphInBatches_of_error (size : Nat) {diagnostic : Diagnostic}
    (h : Envelope.shape.ofBytes text = .error diagnostic) :
    readGraphInBatches size text = .error diagnostic := by
  rw [readGraphInBatches, h]
  rfl

/-- A symbol that cannot be read on its own cannot be read in its place, where less may be
nested in it. So the text cannot be read as a whole. -/
theorem whole_error_of_symbol (h : Envelope.shape.ofBytes text = .ok envelope)
    (hnode : node ∈ envelope.symbols) (hfault : readSymbol node = .error fault) :
    ∃ diagnostic, SymbolGraph.shape.ofBytes text = .error diagnostic := by
  cases hwhole : SymbolGraph.shape.ofBytes text with
  | error diagnostic => exact ⟨diagnostic, rfl⟩
  | ok g =>
    have hentries := (symbols_of_envelope (ofBytes_eq_ok_iff.mp h).1).1
    have hread := GraphOf.symbols_of_decode (ofBytes_eq_ok_iff.mp hwhole).1
    rw [hentries] at hread
    obtain ⟨i, hi, rfl⟩ := List.getElem_of_mem hnode
    have hlength := hread.length_eq
    have hsymbol := (decode_symbolDepth_iff.mp (hread.get hi (hlength ▸ hi))).2
    rw [List.get_eq_getElem, hfault] at hsymbol
    cases hsymbol

/-- The fault of a symbol is not seen: the graph is given the fault of the text as a whole. -/
theorem exists_finish_of_symbol (h : Envelope.shape.ofBytes text = .ok envelope)
    (hnode : node ∈ envelope.symbols) (hfault : readSymbol node = .error fault) :
    ∃ diagnostic, SymbolGraph.shape.ofBytes text = .error diagnostic ∧
      ∀ met, envelope.finish text (.error met) = .error diagnostic := by
  obtain ⟨diagnostic, hwhole⟩ := whole_error_of_symbol h hnode hfault
  refine ⟨diagnostic, hwhole, fun met => ?_⟩
  rw [Envelope.finish, hwhole]

/-- Some symbol cannot be read exactly if not all can be. -/
theorem exists_mapM_error_of_symbol {nodes : List Node} (hnode : node ∈ nodes)
    (hfault : readSymbol node = .error fault) : ∃ met, nodes.mapM readSymbol = .error met := by
  cases h : nodes.mapM readSymbol with
  | error met => exact ⟨met, rfl⟩
  | ok symbols =>
    obtain ⟨s, hs⟩ := Except.exists_mapM_eq_ok_iff.mp ⟨symbols, h⟩ node hnode
    rw [hfault] at hs
    cases hs

/-- **One ending.** However large the batches are and whichever worker comes first to a
symbol that cannot be read, reading a text in batches ends in the same way, with batches of
any other size as well. -/
theorem endsInBatches_iff (size size' : Nat) {result : Except Diagnostic SymbolGraph} :
    EndsInBatches size text result ↔ result = readGraphInBatches size' text := by
  constructor
  · rintro (henvelope | ⟨henvelope, hgive⟩)
    · rw [readGraphInBatches_of_error size' henvelope]
    · rename_i envelope given
      rw [readGraphInBatches_of_envelope size' henvelope]
      cases given with
      | ok symbols => rw [hgive.mapM_eq_ok]
      | error fault =>
        obtain ⟨node, hnode, hfault⟩ := hgive.exists_fault
        obtain ⟨diagnostic, -, hfinish⟩ := exists_finish_of_symbol henvelope hnode hfault
        obtain ⟨met, hmet⟩ := exists_mapM_error_of_symbol hnode hfault
        rw [hmet, hfinish, hfinish]
  · rintro rfl
    cases henvelope : Envelope.shape.ofBytes text with
    | error diagnostic =>
      rw [readGraphInBatches_of_error size' henvelope]
      exact .envelope henvelope
    | ok envelope =>
      rw [readGraphInBatches_of_envelope size' henvelope, ← readBatches_eq_mapM size]
      exact .batches henvelope (batchesGive_readBatches size envelope.symbols)

end Text

/-! ### All sources -/

/-- Whether batches and workers do not show in what is made of a text: it ends in one way,
with the symbols in the order of the text, or with the fault of the text as a whole if a
symbol cannot be read. -/
structure BatchesHidden (p q : Profile) (text : List UInt8) : Prop where
  /-- What workers can come to under one profile is what reading in order gives
  under any other. -/
  ends : ∀ result, EndsInBatches p.symbolsPerBatch.toNat text result ↔
    result = readGraphInBatches q.symbolsPerBatch.toNat text
  /-- The symbols of the graph are those of the text, in their order. -/
  ordered : ∀ g, readGraphInBatches p.symbolsPerBatch.toNat text = .ok g →
    List.Forall₂ (fun node s => readSymbol node = .ok s)
      (Document.ofBytes text).root.symbolEntries g.symbols
  /-- If a symbol cannot be read on its own, the text cannot be read as a whole, which
  is reported. -/
  whole : ∀ envelope, Envelope.shape.ofBytes text = .ok envelope →
    ∀ node ∈ envelope.symbols, ∀ fault, readSymbol node = .error fault →
      ∃ diagnostic, SymbolGraph.shape.ofBytes text = .error diagnostic ∧
      readGraphInBatches p.symbolsPerBatch.toNat text = .error diagnostic

/-- Batches and workers do not show in any text. -/
theorem batchesHidden (p q : Profile) (text : List UInt8) : BatchesHidden p q text := by
  constructor
  case ends => exact fun result => endsInBatches_iff _ _
  case ordered =>
    intro g hg
    obtain ⟨envelope, symbols, henvelope, hsymbols, rfl⟩ := readGraphInBatches_eq_ok_iff.mp hg
    rw [(symbols_of_envelope (ofBytes_eq_ok_iff.mp henvelope).1).1]
    exact hsymbols
  case whole =>
    intro envelope henvelope node hnode fault hfault
    obtain ⟨diagnostic, hwhole, hfinish⟩ := exists_finish_of_symbol henvelope hnode hfault
    obtain ⟨met, hmet⟩ := exists_mapM_error_of_symbol hnode hfault
    refine ⟨diagnostic, hwhole, ?_⟩
    rw [readGraphInBatches_of_envelope _ henvelope, hmet, hfinish]

/-- A profile never asks for batches without members. -/
theorem Profile.symbolsPerBatch_ne_zero (profile : Profile) : profile.symbolsPerBatch ≠ 0 := by
  unfold symbolsPerBatch
  have hmax : max profile.batchSize 1 =
      if profile.batchSize ≤ 1 then 1 else profile.batchSize := rfl
  rw [hmax]
  split
  case isTrue => decide
  case isFalse hlarge =>
    intro hzero
    rw [hzero] at hlarge
    exact hlarge (by decide)

/-- A batch that a profile asks for has a member, and no more than the profile says. -/
theorem Profile.length_of_batch {profile : Profile} {α : Type} {as batch : List α}
    (h : batch ∈ batches profile.symbolsPerBatch.toNat as) :
    0 < batch.length ∧ batch.length ≤ profile.symbolsPerBatch.toNat := by
  have hpos : 0 < profile.symbolsPerBatch.toNat :=
    Nat.pos_of_ne_zero fun hzero => profile.symbolsPerBatch_ne_zero (UInt64.toNat_inj.mp hzero)
  have hlength := length_of_mem_batches h
  omega

/-- **Batches are hidden.** Under any two profiles, whatever batches and workers they ask
for, decoding sources in batches has the same result; in each text that is decoded,
batches and workers do not show; and no batch is empty or larger than the profile says,
which never is zero. -/
theorem Plan.decode_batches_hidden (p q : Profile) (disk : Disk) (requests : List Request) :
    (Plan.batchedSymbols.decode p disk requests).result =
        (Plan.batchedSymbols.decode q disk requests).result ∧
      (∀ request ∈ requests, request.TextHas disk (BatchesHidden p q)) ∧
      p.symbolsPerBatch ≠ 0 ∧
      ∀ nodes : List Node, ∀ batch ∈ batches p.symbolsPerBatch.toNat nodes,
        0 < batch.length ∧ batch.length ≤ p.symbolsPerBatch.toNat := by
  refine ⟨?_, fun request _ text _ => batchesHidden p q text, p.symbolsPerBatch_ne_zero,
    fun nodes batch => Profile.length_of_batch⟩
  have hread : Plan.batchedSymbols.read p = Plan.batchedSymbols.read q := by
    funext text
    exact (batchesHidden q p text).ends _ |>.mp ((batchesHidden q q text).ends _ |>.mpr rfl)
      |>.symm
  rw [Plan.decode_result, Plan.decode_result, hread]

end ApiSurface
