import ApiSurface.Proofs.Reading.Agreement
import ApiSurface.Proofs.Reading.FirstFaults

/-!
# What the two plans say about a source that cannot be decoded

Decoding as a whole reports the first fault in the order of the text. Decoding in batches
reads the envelope first. If the envelope cannot be read, then that is what is reported,
although a symbol before that place may have a fault of its own, which is not looked for any
more. Only if it is a symbol that cannot be read later on, the text is decoded as a whole
for its first fault.

So the two plans report the same if the envelope can be read, or if leaving the symbols as
they stand finds the same first fault in them as reading them does.

## Main results

* `FaultsAgree`: texts about which the same is reported.
* `fault_eq_of_readGraphInBatches`: one text.
* `Plan.decode_fault_agree`: one source.
-/

namespace ApiSurface

open Json Wire

/-! ### One text -/

/-- The entries of the list of symbols that reading a graph comes to. -/
def Json.Node.metSymbols (root : Node) : List Node := (root.symbolsMet.map Node.values).getD []

/-- Whether some symbols have the same first fault, left as they stand or read. -/
def SymbolFaultsAgree (entries : List Node) : Prop :=
  firstFault (Shape.raw.decode symbolDepth) entries =
    firstFault (Symbol.shape.decode symbolDepth) entries

instance (entries : List Node) : Decidable (SymbolFaultsAgree entries) :=
  inferInstanceAs (Decidable (firstFault (Shape.raw.decode symbolDepth) entries =
    firstFault (Symbol.shape.decode symbolDepth) entries))

/-- Whether both plans report the same about a text, if neither can decode it: its envelope
can be read, or the text begins a graph whose symbols, as far as reading comes to them, have
the same first fault, left as they stand or read. -/
def FaultsAgree (text : List UInt8) : Prop :=
  (Envelope.shape.ofBytes text).toBool = true ∨
    (Document.ofBytes text).root.isNoGraph = false ∧
      SymbolFaultsAgree (Document.ofBytes text).root.metSymbols

instance (text : List UInt8) : Decidable (FaultsAgree text) :=
  inferInstanceAs (Decidable ((Envelope.shape.ofBytes text).toBool = true ∨
    (Document.ofBytes text).root.isNoGraph = false ∧
      SymbolFaultsAgree (Document.ofBytes text).root.metSymbols))

variable {text : List UInt8}

/-- A text has the same fault in two shapes if its root is read alike. -/
theorem fault?_ofBytes_eq {α β : Type} {shape : Shape α} {shape' : Shape β}
    (h : (shape.decode .ofText (Document.ofBytes text).root).Alike (fun _ _ => True)
      (shape'.decode .ofText (Document.ofBytes text).root)) :
    (shape.ofBytes text).fault? = (shape'.ofBytes text).fault? := by
  have huse : ((Document.ofBytes text).use (shape.decode .ofText)).Alike (fun _ _ => True)
      ((Document.ofBytes text).use (shape'.decode .ofText)) := by
    refine h.bind fun a b _ _ => ?_
    cases (Document.ofBytes text).surplus with
    | none => exact .ok trivial
    | some seen => exact .error _
  rw [Shape.ofBytes, Shape.ofBytes, Except.fault?_mapError, Except.fault?_mapError,
    huse.fault?_eq]

/-- The envelope of a text has the same fault as the graph if the symbols have. -/
theorem fault?_envelope_eq (graph : (Document.ofBytes text).root.isNoGraph = false)
    (symbols : SymbolFaultsAgree (Document.ofBytes text).root.metSymbols) :
    (Envelope.shape.ofBytes text).fault? = (SymbolGraph.shape.ofBytes text).fault? := by
  refine fault?_ofBytes_eq (GraphOf.decode_alike "Envelope" "SymbolGraph" graph
    fun node hnode => ?_)
  refine Shape.decode_list_alike enter_symbols ?_
  have hentries : (Document.ofBytes text).root.metSymbols = node.values := by
    rw [Node.metSymbols, hnode, Option.map_some, Option.getD_some]
  rw [← hentries]
  exact symbols

/-- If the envelope of a text can be read, but not its symbols, then the graph is read as a
whole for its fault. -/
theorem whole_of_envelope {size : Nat} {d d' : Diagnostic} {envelope : Envelope}
    (henvelope : Envelope.shape.ofBytes text = .ok envelope)
    (h : readGraphInBatches size text = .error d)
    (h' : SymbolGraph.shape.ofBytes text = .error d') : d = d' := by
  rw [readGraphInBatches, henvelope, Except.ok_bind] at h
  cases hsymbols : readBatches size envelope.symbols with
  | ok symbols =>
    rw [hsymbols] at h
    cases h
  | error fault =>
    rw [hsymbols, h'] at h
    cases h
    rfl

/-- The same fault is found in a text in both ways of reading it, if it is such a text. -/
theorem fault_eq_of_readGraphInBatches {size : Nat} {d d' : Diagnostic}
    (h : readGraphInBatches size text = .error d)
    (h' : SymbolGraph.shape.ofBytes text = .error d') (agree : FaultsAgree text) : d = d' := by
  cases henvelope : Envelope.shape.ofBytes text with
  | ok envelope => exact whole_of_envelope henvelope h h'
  | error fault =>
    obtain hread | ⟨graph, symbols⟩ := agree
    · rw [henvelope] at hread
      cases hread
    · have hfault := fault?_envelope_eq graph symbols
      rw [henvelope, h', Except.fault?_error, Except.fault?_error, Option.some.injEq] at hfault
      rw [readGraphInBatches, henvelope] at h
      cases h
      exact hfault

/-! ### One source -/

/-- Why a source cannot be decoded, whose text is read by the given function. -/
def Request.CannotBeRead (request : Request) (disk : Disk)
    (read : List UInt8 → Except Diagnostic SymbolGraph) : DecodeFault → Prop
  | .file fault => request.source.read disk = .error fault
  | .json diagnostic =>
    ∃ text, request.source.read disk = .ok text ∧ read text = .error diagnostic

/-- A source that cannot be decoded is named by its path, with the reason. -/
theorem Request.cause_of_decodeBy {request : Request} {disk : Disk}
    {read : List UInt8 → Except Diagnostic SymbolGraph} {fault : LoadFault}
    (h : request.decodeBy disk read = .error fault) :
    ∃ cause, fault = .decode request.source.path cause ∧
      request.CannotBeRead disk read cause := by
  rw [decodeBy] at h
  cases hsource : request.source.read disk with
  | error e =>
    rw [hsource] at h
    cases h
    exact ⟨.file e, rfl, hsource⟩
  | ok text =>
    simp only [hsource] at h
    cases hread : read text with
    | error d =>
      rw [hread] at h
      cases h
      exact ⟨.json d, rfl, text, hsource, hread⟩
    | ok g =>
      rw [hread] at h
      cases h

namespace Plan

/-- A plan decodes a single source as it reads its text. -/
theorem decode_single_error {plan : Plan} {profile : Profile} {disk : Disk} {request : Request}
    {fault : LoadFault} (h : (plan.decode profile disk [request]).result = .error fault) :
    request.decodeBy disk (plan.read profile) = .error fault := by
  rw [decode_result, List.mapM_cons, List.mapM_nil] at h
  cases hdecoded : request.decodeBy disk (plan.read profile) with
  | error e =>
    rw [hdecoded] at h
    cases h
    rfl
  | ok decoded =>
    rw [hdecoded] at h
    cases h

/-- **The same is reported under both plans.** If a source can be decoded neither in
batches, of whatever size, nor as a whole, both plans name its path; and both give the same
reason, with the same place in the text, if the envelope of the text can be read or the
symbols before its fault have none of their own. -/
theorem decode_fault_agree {p q : Profile} {disk : Disk} {request : Request} {b w : LoadFault}
    (hb : (Plan.batchedSymbols.decode p disk [request]).result = .error b)
    (hw : (Plan.wholeFiles.decode q disk [request]).result = .error w) :
    ∃ cause cause', b = .decode request.source.path cause ∧
      w = .decode request.source.path cause' ∧
      (request.TextHas disk FaultsAgree → cause = cause') := by
  obtain ⟨cause, rfl, hcause⟩ := Request.cause_of_decodeBy (decode_single_error hb)
  obtain ⟨cause', rfl, hcause'⟩ := Request.cause_of_decodeBy (decode_single_error hw)
  refine ⟨cause, cause', rfl, rfl, fun agree => ?_⟩
  cases cause with
  | file e =>
    cases cause' with
    | file e' => exact congrArg DecodeFault.file (Except.error.inj (hcause.symm.trans hcause'))
    | json d' =>
      obtain ⟨text, htext, -⟩ := hcause'
      cases hcause.symm.trans htext
  | json d =>
    obtain ⟨text, htext, hd⟩ := hcause
    cases cause' with
    | file e' => cases htext.symm.trans hcause'
    | json d' =>
      obtain ⟨text', htext', hd'⟩ := hcause'
      cases htext.symm.trans htext'
      exact congrArg DecodeFault.json (fault_eq_of_readGraphInBatches hd hd'
        (agree text htext))

/-! ### A text with two faults -/

/-- A text with the given symbol and a number in place of a relationship. -/
def faultyText (symbol : String) : List UInt8 :=
  Text.bytes <|
    "\x7b\"metadata\":\x7b\"formatVersion\":\x7b\"major\":1\x7d,\"generator\":\"g\"\x7d," ++
    "\"module\":\x7b\"name\":\"M\"\x7d,\"symbols\":[" ++ symbol ++
    "],\"relationships\":[7]\x7d"

/-- A request for such a text. -/
def faultyRequest (symbol : String) : Request :=
  ⟨⟨.ofText "M.symbols.json", some (faultyText symbol)⟩, .main "M"⟩

/-- A symbol that can be read. -/
def plainSymbol : String := "\x7b\"identifier\":[\"p\",\"s\"],\"kind\":[\"k\",\"d\"]\x7d"

/-- The number is reported under both plans if it is the first fault. -/
theorem decode_fault_agree_relationship : ∃ cause,
    (Plan.batchedSymbols.decode ⟨false, 1, 2⟩ ⟨.emptyDirectory, []⟩
        [faultyRequest plainSymbol]).result =
      .error (.decode (.ofText "M.symbols.json") cause) ∧
    (Plan.wholeFiles.decode ⟨true, 1, 1⟩ ⟨.emptyDirectory, []⟩
        [faultyRequest plainSymbol]).result =
      .error (.decode (.ofText "M.symbols.json") cause) := by
  have hbatched : (Plan.batchedSymbols.decode ⟨false, 1, 2⟩ ⟨.emptyDirectory, []⟩
      [faultyRequest plainSymbol]).result.toBool = false := by decide +kernel
  have hwhole : (Plan.wholeFiles.decode ⟨true, 1, 1⟩ ⟨.emptyDirectory, []⟩
      [faultyRequest plainSymbol]).result.toBool = false := by decide +kernel
  have agree : FaultsAgree (faultyText plainSymbol) := by decide +kernel
  cases hb : (Plan.batchedSymbols.decode ⟨false, 1, 2⟩ ⟨.emptyDirectory, []⟩
      [faultyRequest plainSymbol]).result with
  | ok decoded => rw [hb] at hbatched; cases hbatched
  | error b =>
    cases hw : (Plan.wholeFiles.decode ⟨true, 1, 1⟩ ⟨.emptyDirectory, []⟩
        [faultyRequest plainSymbol]).result with
    | ok decoded => rw [hw] at hwhole; cases hwhole
    | error w =>
      obtain ⟨cause, cause', rfl, rfl, heq⟩ := decode_fault_agree hb hw
      obtain rfl : cause = cause' := heq fun text htext => by cases htext; exact agree
      exact ⟨cause, rfl, rfl⟩

/-- If a symbol before the number cannot be read either, only decoding as a whole
reports the symbol. -/
theorem decode_fault_disagree :
    ¬ ∀ (p q : Profile) (disk : Disk) (request : Request) (b w : LoadFault),
      (Plan.batchedSymbols.decode p disk [request]).result = .error b →
      (Plan.wholeFiles.decode q disk [request]).result = .error w →
      b.message = w.message := by
  have hbatched : (Plan.batchedSymbols.decode ⟨false, 1, 2⟩ ⟨.emptyDirectory, []⟩
      [faultyRequest "\x7b\"kind\":42\x7d"]).result.fault?.map LoadFault.message =
      some ("failed to decode symbol graph M.symbols.json: JSON error: " ++
        "invalid type: integer `7`, expected struct Relationship at line 1 column 122") := by
    decide +kernel
  have hwhole : (Plan.wholeFiles.decode ⟨true, 1, 1⟩ ⟨.emptyDirectory, []⟩
      [faultyRequest "\x7b\"kind\":42\x7d"]).result.fault?.map LoadFault.message =
      some ("failed to decode symbol graph M.symbols.json: JSON error: " ++
        "invalid type: integer `42`, expected struct SymbolKind at line 1 column 101") := by
    decide +kernel
  intro agree
  obtain ⟨b, hb, hbmessage⟩ := Option.map_eq_some_iff.mp hbatched
  obtain ⟨w, hw, hwmessage⟩ := Option.map_eq_some_iff.mp hwhole
  have heq :=
    agree _ _ _ _ b w (Except.fault?_eq_some_iff.mp hb) (Except.fault?_eq_some_iff.mp hw)
  rw [hbmessage, hwmessage] at heq
  exact absurd heq (by decide)

end Plan

end ApiSurface
