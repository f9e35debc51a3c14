import ApiSurface.Proofs.Model.WireTypes
import ApiSurface.Proofs.Reading.Agreement
import ApiSurface.Proofs.Reading.Alike

/-!
# Layout

What is read of a text depends on what the text says, and not on its layout: the blanks
between the parts, the order of the members of objects, and the way in which the characters
of strings are written. A shape looks at the members of an object under their keys, one
field after the other, so trees that are alike are read alike. What an open record keeps of
its other members is put in key order.

If a graph is read in batches, its symbols are kept as trees for a while. They are alike
then, and are read alike in their turn.

## Main definitions

* `ReadAlike`: whether two texts are read as the same symbol, and as the
  same graph in either way.

## Main results

* `Wire.likeness_alike`: being alike leaves no difference that a shape sees.
* `Wire.Shape.respects_alike`: a faithful shape reads trees that are alike as the same value.
* `readAlike_of_saysSame`: texts that say the same are read alike.
-/

namespace ApiSurface

open Json Wire

namespace Wire

/-! ### Trees that are alike -/

/-- What is kept of trees that are alike is settled as the same value. -/
theorem settle_of_alike {depth : Depth} {node node' : Node} (alike : node.Alike node')
    {v : Value} (h : node.keep depth = .ok v) :
    ∃ v' settled, node'.keep depth = .ok v' ∧ v.settle = .ok settled ∧
      v'.settle = .ok settled := by
  obtain ⟨v', hv', hsorted, hlacks⟩ := node.keptAlike depth v node' alike h
  -- Without the embedding key settling is sorting, and neither side has that key.
  obtain ⟨_, -, -, hlacks'⟩ := node'.keptAlike depth v' node alike.symm hv'
  exact ⟨v', v.sorted, hv', v.settle_of_lacks hlacks, hsorted ▸ v'.settle_of_lacks hlacks'⟩

/-- Being alike leaves no difference that a shape sees, if the bound on nesting is the same. -/
theorem likeness_alike :
    Likeness fun depth depth' node node' => depth = depth' ∧ node.Alike node' where
  isNull_iff related := related.2.isNull_iff
  bool related := related.2.bool
  number related := related.2.number
  text related := related.2.text
  array := by
    rintro depth _ start items node' inner ⟨rfl, alike⟩ henter
    obtain ⟨start', items', nodes, nodes', rfl, hnodes, hnodes', hall⟩ := alike.array
    exact ⟨start', items', inner, nodes, nodes', rfl, Depth.enter_of_enter henter start',
      hnodes, hnodes', hall.imp fun _ _ h => ⟨rfl, h⟩⟩
  object := by
    rintro depth _ start members node' inner entries ⟨rfl, alike⟩ henter hentries
    obtain ⟨start', members', entries', rfl, hentries',
        ⟨⟨ordered, hrelated, hperm⟩, hdistinct⟩, -⟩ :=
      alike.object hentries
    exact ⟨start', members', inner, entries', rfl, Depth.enter_of_enter henter start',
      hentries', ⟨ordered, hrelated.imp fun _ _ h => ⟨h.1, rfl, h.2⟩, hperm⟩, hdistinct⟩
  skip related := related.2.symm.passes.1
  keep := by
    rintro depth _ node node' v ⟨rfl, alike⟩ h
    exact settle_of_alike alike h

/-- **Readings alike.** A faithful shape reads trees that are alike as the same value. -/
theorem Shape.respects_alike {α : Type} (shape : Shape α) (faithful : shape.IsFaithful)
    (depth : Depth) : Respects Node.Alike (shape.decode depth) (shape.decode depth) :=
  fun node node' a alike => shape.respects likeness_alike faithful depth depth node node' a
    ⟨rfl, alike⟩

/-! ### Symbols left as they stand -/

/-- A list of nodes that are left as they stand is read of any node alike, as nodes alike. -/
theorem decode_rawList_alike {depth : Depth} {node node' : Node} (alike : node.Alike node')
    {kept : List Node} (h : (Shape.list .raw).decode depth node = .ok kept) :
    ∃ kept', (Shape.list .raw).decode depth node' = .ok kept' ∧
      List.Forall₂ Node.Alike kept kept' := by
  obtain ⟨start, items, inner, nodes, rfl, henter, hnodes, hraw⟩ := Shape.decode_list_iff.mp h
  obtain ⟨start', items', _, nodes', rfl, hsome, hnodes', hall⟩ := alike.array
  cases hnodes.symm.trans hsome
  have hkept : List.Forall₂ (· = ·) nodes kept :=
    hraw.imp fun _ _ h => (decode_raw_iff.mp h).2.2
  obtain rfl := List.forall₂_eq_eq_eq ▸ hkept
  refine ⟨nodes', Shape.decode_list_iff.mpr ⟨start', items', inner, nodes', rfl,
    Depth.enter_of_enter henter start', hnodes', List.forall₂_same.mpr fun node' hnode' =>
    ?_⟩, hall⟩
  obtain ⟨node, -, halike⟩ := Except.exists_of_forall₂ hall hnode'
  obtain ⟨hskip, hflaw⟩ := halike.symm.passes
  exact decode_raw_iff.mpr ⟨hskip, hflaw, rfl⟩

/-- The same for the value of a field that may be missing. -/
theorem gives_rawList_alike {depth : Depth} {nodes nodes' : List Node}
    (alike : NodesLike Node.Alike nodes nodes') {kept : List Node}
    (h : Gives ((Shape.list .raw).decode depth) [] nodes kept) :
    ∃ kept', Gives ((Shape.list .raw).decode depth) [] nodes' kept' ∧
      List.Forall₂ Node.Alike kept kept' := by
  obtain ⟨rfl, rfl⟩ | ⟨node, rfl, hlist⟩ := h
  · exact ⟨[], .inl ⟨alike.eq_nil, rfl⟩, .nil⟩
  · obtain ⟨node', rfl, halike⟩ := alike.eq_singleton
    obtain ⟨kept', hlist', hkept⟩ := decode_rawList_alike halike hlist
    exact ⟨kept', .inr ⟨node', rfl, hlist'⟩, hkept⟩

end Wire

/-- An envelope is read of any tree alike, with symbols alike. -/
theorem Envelope.decode_alike {depth : Depth} {node node' : Node} (alike : node.Alike node')
    {envelope : Envelope} (h : Envelope.shape.decode depth node = .ok envelope) :
    ∃ symbols, Envelope.shape.decode depth node' = .ok { envelope with symbols } ∧
      List.Forall₂ Node.Alike envelope.symbols symbols := by
  obtain ⟨start, inner, values, henter, rfl, hnode⟩ := Shape.decode_record_iff.mp h
  have readsMetadata := Metadata.shape.respects_alike Metadata.shape_isFaithful inner
  have readsModule := Module.shape.respects_alike Module.shape_isFaithful inner
  have readsRelationships :=
    (Shape.list Relationship.shape).respects_alike Relationship.shape_isFaithful inner
  obtain ⟨members, entries, left, rfl, hentries, hreads, -⟩ |
    ⟨items, nodes, rfl, hnodes, hreads⟩ := hnode
  · obtain ⟨start', members', entries', rfl, hentries', halike⟩ := alike.object hentries
    obtain ⟨hmetadata, hmodule, hsymbols, hrelationships, -⟩ := hreads
    have hmodules := halike.besides "metadata"
    have hlists := hmodules.besides "module"
    have hlast := hlists.besides "symbols"
    obtain ⟨symbols, hsymbols', hkept⟩ := gives_rawList_alike (hlists.under "symbols") hsymbols
    refine ⟨symbols, Shape.decode_record_iff.mpr
      ⟨start', inner, (values.1, values.2.1, symbols, values.2.2.2),
        Depth.enter_of_enter henter start', rfl,
        .inl ⟨members', entries', _, rfl, hentries', ?_,
          (hlast.besides "relationships").skip fun alike => alike.symm.passes.1⟩⟩, hkept⟩
    exact ⟨readsMetadata.only (halike.under "metadata") hmetadata,
      readsModule.only (hmodules.under "module") hmodule, hsymbols',
      readsRelationships.gives (hlast.under "relationships") hrelationships, rfl⟩
  · obtain ⟨start', items', _, nodes', rfl, hsome, hnodes', hall⟩ := alike.array
    cases hnodes.symm.trans hsome
    obtain ⟨hmetadata, hmodule, hsymbols, hrelationships, hdone⟩ := hreads
    have hmodules := List.forall₂_drop 1 hall
    have hlists := List.forall₂_drop 1 hmodules
    have hlast := List.forall₂_drop 1 hlists
    have hend := List.forall₂_drop 1 hlast
    rw [show _ = [] from hdone, List.forall₂_nil_left_iff] at hend
    obtain ⟨symbols, hsymbols', hkept⟩ :=
      gives_rawList_alike (nodesLike_take_one hlists) hsymbols
    refine ⟨symbols, Shape.decode_record_iff.mpr
      ⟨start', inner, (values.1, values.2.1, symbols, values.2.2.2),
        Depth.enter_of_enter henter start', rfl,
        .inr ⟨items', nodes', rfl, hnodes', ?_⟩⟩, hkept⟩
    exact ⟨readsMetadata.only (nodesLike_take_one hall) hmetadata,
      readsModule.only (nodesLike_take_one hmodules) hmodule, hsymbols',
      readsRelationships.gives (nodesLike_take_one hlast) hrelationships, hend⟩

/-! ### Texts -/

section Pages

variable {p q : Page}

/-- The values of pages that agree have been read as trees that are alike. -/
theorem Json.Page.alike (agree : p.value.Agree q.value) :
    (Document.ofBytes p.bytes).root.Alike (Document.ofBytes q.bytes).root :=
  ⟨p.value, q.value, p.document.1, q.document.1, agree⟩

/-- What a faithful shape reads of a page it reads of any page that agrees with it. -/
theorem Json.Page.ofBytes_of_agree {α : Type} {shape : Shape α} (faithful : shape.IsFaithful)
    (agree : p.value.Agree q.value) {a : α} (h : shape.ofBytes p.bytes = .ok a) :
    shape.ofBytes q.bytes = .ok a := by
  obtain ⟨hroot, -⟩ := ofBytes_eq_ok_iff.mp h
  exact ofBytes_eq_ok_iff.mpr ⟨shape.respects_alike faithful .ofText _ _ a (Page.alike agree)
    hroot, q.document.2⟩

/-- A graph that is read in batches of a page is read in batches of any page that
agrees with it. -/
theorem Json.Page.readGraphInBatches_of_agree (agree : p.value.Agree q.value) {size : Nat}
    {g : SymbolGraph} (h : readGraphInBatches size p.bytes = .ok g) :
    readGraphInBatches size q.bytes = .ok g := by
  obtain ⟨envelope, symbols, henvelope, hsymbols, rfl⟩ := readGraphInBatches_eq_ok_iff.mp h
  obtain ⟨hroot, -⟩ := ofBytes_eq_ok_iff.mp henvelope
  obtain ⟨kept, hroot', hkept⟩ := Envelope.decode_alike (Page.alike agree) hroot
  refine readGraphInBatches_eq_ok_iff.mpr ⟨{ envelope with symbols := kept }, symbols,
    ofBytes_eq_ok_iff.mpr ⟨hroot', q.document.2⟩, ?_, rfl⟩
  exact (Symbol.shape.respects_alike Symbol.shape_isFaithful .ofText).forall₂ hkept hsymbols

end Pages

/-- Whether two texts are read as the same symbol, as the same graph, and as the same graph
in batches, or as none either of them; and whether what has been read of them is written in
the same way. -/
structure ReadAlike (text text' : List UInt8) : Prop where
  symbol : (Symbol.shape.ofBytes text).toOption = (Symbol.shape.ofBytes text').toOption
  graph : (SymbolGraph.shape.ofBytes text).toOption =
    (SymbolGraph.shape.ofBytes text').toOption
  batches : ∀ size, (readGraphInBatches size text).toOption =
    (readGraphInBatches size text').toOption
  symbolText : (Symbol.shape.recode text).toOption = (Symbol.shape.recode text').toOption
  graphText : (SymbolGraph.shape.recode text).toOption =
    (SymbolGraph.shape.recode text').toOption
  batchesText :
    ∀ size, ((readGraphInBatches size text).map SymbolGraph.shape.render).toOption =
    ((readGraphInBatches size text').map SymbolGraph.shape.render).toOption

/-- **Layout.** Texts that say the same, in which no object repeats a key or has the
embedding key, are read alike. -/
theorem readAlike_of_saysSame {p q : Page} (same : p.value.SaysSame q.value)
    (orderly : p.value.IsOrderly) (orderly' : q.value.IsOrderly) :
    ReadAlike p.bytes q.bytes := by
  have agree : p.value.Agree q.value := ⟨same, orderly, orderly'⟩
  have agree' : q.value.Agree p.value := ⟨same.symm, orderly', orderly⟩
  have hshape {α : Type} (shape : Shape α) (faithful : shape.IsFaithful) :
      (shape.ofBytes p.bytes).toOption = (shape.ofBytes q.bytes).toOption :=
    Except.toOption_eq_iff.mpr fun _ =>
      ⟨Page.ofBytes_of_agree faithful agree, Page.ofBytes_of_agree faithful agree'⟩
  have hsymbol := hshape Symbol.shape Symbol.shape_isFaithful
  have hgraph := hshape SymbolGraph.shape SymbolGraph.shape_isFaithful
  have hbatches (size : Nat) :
      (readGraphInBatches size p.bytes).toOption =
        (readGraphInBatches size q.bytes).toOption :=
    Except.toOption_eq_iff.mpr fun _ =>
      ⟨Page.readGraphInBatches_of_agree agree, Page.readGraphInBatches_of_agree agree'⟩
  constructor
  case symbol => exact hsymbol
  case graph => exact hgraph
  case batches => exact hbatches
  case symbolText =>
    rw [Shape.recode, Shape.recode, Except.toOption_map, Except.toOption_map, hsymbol]
  case graphText =>
    rw [Shape.recode, Shape.recode, Except.toOption_map, Except.toOption_map, hgraph]
  case batchesText =>
    intro size
    rw [Except.toOption_map, Except.toOption_map, hbatches size]

/-- A string whose characters stand for themselves, as far as they may. -/
def plainly (s : String) : List Piece :=
  s.toList.filterMap fun c => if h : 32 ≤ c.toNat ∧ c ≠ '"' ∧
    c ≠ '\\' then some (.plain c h) else none

/-- A symbol with a payload, without blanks and escapes. -/
def compactPage : Page := ⟨[], .object [] [
  (⟨[], plainly "identifier", [], [], []⟩, .array [] [
    (⟨[], []⟩, .text (plainly "p")), (⟨[], []⟩, .text (plainly "s"))]),
  (⟨[], plainly "kind", [], [], []⟩, .array [] [
    (⟨[], []⟩, .text (plainly "k")), (⟨[], []⟩, .text (plainly "😀"))]),
  (⟨[], plainly "x", [], [], []⟩, .object [] [
    (⟨[], plainly "b", [], [], []⟩, .bool true),
    (⟨[], plainly "a", [], [], []⟩, .array [] [])])], []⟩

/-- An escape by a code with these digits, in small letters. -/
def smallCode (a b c d : Nat) : Piece :=
  .code (.ofNat a false) (.ofNat b false) (.ofNat c false) (.ofNat d false)

/-- The same symbol with blanks and escapes, and with its members the other way round. -/
def spreadPage : Page := ⟨[.lineFeed], .object [] [
  (⟨[.space], plainly "x", [.tab], [.space], []⟩, .object [.space] [
    (⟨[], plainly "a", [], [], [.space]⟩, .array [.space, .space] []),
    (⟨[], [smallCode 0 0 6 2], [], [], []⟩, .bool true)]),
  (⟨[], plainly "kin" ++ [smallCode 0 0 6 4], [], [], []⟩, .array [] [
    (⟨[.space], []⟩, .text (plainly "k")),
    (⟨[], [.carriageReturn]⟩,
      .text [.code (.ofNat 13 true) (.ofNat 8 false) (.ofNat 3 false) (.ofNat 13 false),
        smallCode 13 14 0 0])]),
  (⟨[.space], plainly "identifier", [], [], []⟩, .array [] [
    (⟨[], []⟩, .text (plainly "p")), (⟨[], []⟩, .text (plainly "s"))])], []⟩

theorem compactPage_isOrderly : compactPage.value.IsOrderly := by
  refine .object (by decide +kernel) (by decide +kernel) (List.forall_mem_cons.mpr
    ⟨.array ?_, List.forall_mem_cons.mpr ⟨.array ?_, List.forall_mem_singleton.mpr
      (.object (by decide +kernel) (by decide +kernel) ?_)⟩⟩)
  · simp [Written.IsOrderly.text]
  · simp [Written.IsOrderly.text]
  · simp [Written.IsOrderly.bool, Written.IsOrderly.array]

theorem spreadPage_isOrderly : spreadPage.value.IsOrderly := by
  refine .object (by decide +kernel) (by decide +kernel) (List.forall_mem_cons.mpr
    ⟨.object (by decide +kernel) (by decide +kernel) ?_, List.forall_mem_cons.mpr
      ⟨.array ?_, List.forall_mem_singleton.mpr (.array ?_)⟩⟩)
  · simp [Written.IsOrderly.bool, Written.IsOrderly.array]
  · simp [Written.IsOrderly.text]
  · simp [Written.IsOrderly.text]

/-- Objects say the same if their members do when they are taken the other way round. -/
theorem Json.Written.SaysSame.of_reverse {gap gap' : List Blank}
    {members members' : List (Lead × Written)}
    (keys : List.Forall₂ (fun member member' => stringUnits member.1.key =
      stringUnits member'.1.key) members members'.reverse)
    (values : List.Forall₂ (fun member member' => SaysSame member.2 member'.2) members
      members'.reverse) :
    SaysSame (.object gap members) (.object gap' members') :=
  .object keys values members'.reverse_perm

theorem compactPage_saysSame_spreadPage : compactPage.value.SaysSame spreadPage.value := by
  have hplain (s : String) :
      (Written.text (plainly s)).SaysSame (.text (plainly s)) := .text rfl
  refine .of_reverse (.cons rfl (.cons (by decide +kernel) (.cons rfl .nil)))
    (.cons ?identifier (.cons ?kind (.cons ?payload .nil)))
  case identifier => exact .array (.cons (hplain "p") (.cons (hplain "s") .nil))
  case kind => exact .array (.cons (hplain "k") (.cons (.text (by decide +kernel)) .nil))
  case payload =>
    exact .of_reverse (.cons (by decide +kernel) (.cons rfl .nil))
      (.cons (.bool true) (.cons (.array .nil) .nil))

/-- A symbol is read from either page, and written without blanks and escapes. -/
theorem readAlike_of_saysSame_spread :
    compactPage.bytes =
      Text.bytes ("\x7b\"identifier\":[\"p\",\"s\"],\"kind\":[\"k\",\"😀\"]," ++
      "\"x\":\x7b\"b\":true,\"a\":[]\x7d\x7d") ∧
    spreadPage.bytes = Text.bytes ("\n\x7b \"x\"\t: \x7b \"a\":[  ] ,\"\\u0062\":true\x7d," ++
      "\"kin\\u0064\":[ \"k\",\"\\uD83d\\ude00\"\r], \"identifier\":[\"p\",\"s\"]\x7d") ∧
    (Symbol.shape.recode compactPage.bytes).toOption = some (
      "\x7b\"identifier\":\x7b\"precise\":\"p\",\"interfaceLanguage\":\"s\"\x7d," ++
      "\"kind\":\x7b\"identifier\":\"k\",\"displayName\":\"😀\"\x7d,\"pathComponents\":[]," ++
      "\"names\":\x7b\"title\":\"\"\x7d,\"accessLevel\":\"public\"," ++
      "\"x\":\x7b\"a\":[],\"b\":true\x7d\x7d") ∧
    ReadAlike compactPage.bytes spreadPage.bytes :=
  ⟨by decide +kernel, by decide +kernel, by decide +kernel,
    readAlike_of_saysSame compactPage_saysSame_spreadPage compactPage_isOrderly
      spreadPage_isOrderly⟩

end ApiSurface
