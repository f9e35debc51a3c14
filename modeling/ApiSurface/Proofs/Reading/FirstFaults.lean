import ApiSurface.Proofs.Reading.Graphs
import ApiSurface.Proofs.Reading.RoundTrip

/-!
# The first fault of a graph

A graph is read in the order of its text, and the first thing that is wrong is its fault.
How its symbols are read matters only if reading comes to them. So two ways of reading
symbols give the same fault for the graph if they find the same first fault in the symbols
that reading comes to.

There is one exception. If a text holds no graph at all, the message says what was to be
read, and that is called by another name in the two ways.

## Main results

* `fault?_decodeItems`: the fault of a list.
* `Json.Node.symbolsMet`: the symbols that reading a graph comes to.
* `GraphOf.decode_alike`: two ways of reading symbols, in a graph.
-/

namespace ApiSurface

open Json Wire

/-- A node of the wrong kind has the same fault, whatever might have been read from it. -/
theorem Json.mismatch_alike {α β : Type} {R : α → β → Prop} (due : String) (node : Node) :
    (mismatch due node : Except Fault α).Alike R (mismatch due node : Except Fault β) := by
  refine (Except.Alike.refl (found node)).bind ?_
  rintro ⟨what, place⟩ _ - rfl
  exact .error _

/-- A node that is nothing at all has the same fault, whatever it should have been. -/
theorem Json.mismatch_alike_of_notFound {α β : Type} {R : α → β → Prop} (due due' : String)
    {node : Node} (h : (found node).toBool = false) :
    (mismatch due node : Except Fault α).Alike R (mismatch due' node : Except Fault β) := by
  rw [mismatch, mismatch]
  cases hfound : found node with
  | error e => exact .error e
  | ok _ => rw [hfound] at h; cases h

/-! ### Lists -/

/-- The items of an array, as far as they could be read. -/
def Json.Items.values : Items → List Node
  | .item _ value rest => value :: rest.values
  | _ => []

/-- The items of a node that is an array, as far as they could be read. -/
def Json.Node.values : Node → List Node
  | .array _ items => items.values
  | _ => []

/-- The fault of the first of some nodes that cannot be read. -/
def firstFault {α : Type} (read : Node → Except Fault α) (nodes : List Node) : Option Fault :=
  nodes.findSome? fun node => (read node).fault?

/-- The fault of a list is that of the first item that cannot be read, or
else that of its end. -/
theorem fault?_decodeItems {α : Type} (read : Node → Except Fault α) : (items : Items) →
    (decodeItems read items).fault? =
      (firstFault read items.values).or (decodeItems (fun _ => Except.ok ()) items).fault?
  | .item _ value rest => by
    have ih := fault?_decodeItems read rest
    rw [decodeItems, decodeItems, Items.values, firstFault, List.findSome?_cons]
    cases read value with
    | error e => rfl
    | ok a =>
      rw [Except.fault?_ok, Except.ok_bind, Except.ok_bind, Except.fault?_bind_pure,
        Except.fault?_bind_pure]
      exact ih
  | .close _ | .trailing _ | .stray _ | .ended _ => rfl

/-- Lists are read alike if the first faults of their items are the same. -/
theorem Shape.decode_list_alike {α β : Type} {item : Shape α} {item' : Shape β}
    {depth inner : Depth} {node : Node} (enter : ∀ start, depth.enter start = .ok inner)
    (h : firstFault (item.decode inner) node.values =
      firstFault (item'.decode inner) node.values) :
    ((Shape.list item).decode depth node).Alike (fun _ _ => True)
      ((Shape.list item').decode depth node) := by
  cases node with
  | array start items =>
    rw [Shape.decode, Shape.decode, enter start, Except.ok_bind, Except.ok_bind]
    refine .of_fault?_eq ?_
    rw [fault?_decodeItems, fault?_decodeItems (item'.decode inner)]
    exact congrArg (Option.or · _) h
  | _ => exact mismatch_alike "a sequence" _

/-! ### Objects -/

/-- The value under a key that reading the members of an object comes to, if it finds
nothing wrong before that. -/
def Json.Members.met {σ : Type} (repeated : String → σ → Option Cause)
    (add : String → Node → σ → Except Fault σ) (key : String) : Members → σ → Option Node
  | .member spelling _ value _ rest, state =>
    match spelling.text with
    | .error _ => none
    | .ok name =>
      if name = key then some value
      else if (repeated name state).isSome then none
      else
        match add name value state with
        | .error _ => none
        | .ok state => rest.met repeated add key state
  | _, _ => none

/-! ### Graphs -/

namespace GraphOf

variable {σ τ : Type} {name name' : String} {symbol : Shape σ} {symbol' : Shape τ}

/-- The last field of a graph. -/
def relationshipField : Fields (List Relationship × Unit) :=
  .defaulted "relationships" (.list Relationship.shape) [] .done

/-- The fields of a graph that are lists. -/
def listFields (symbol : Shape σ) : Fields (List σ × List Relationship × Unit) :=
  .defaulted "symbols" (.list symbol) [] relationshipField

/-- The fields of a graph whose entries have a shape. -/
def fields (symbol : Shape σ) :
    Fields (Metadata × Module × List σ × List Relationship × Unit) :=
  .required "metadata" Metadata.shape <| .required "module" Module.shape (listFields symbol)

/-- What stands inside of a graph nests one level less deeply. -/
def partDepth : Depth := .upTo 127

/-- What reading a graph makes of a member. -/
def take (symbol : Shape σ) (key : String) (value : Node) (slots : (fields symbol).Slots) :
    Except Fault (fields symbol).Slots :=
  ((fields symbol).store partDepth key value slots).getD do
    value.skip
    return slots

/-- Reading a graph from an object reads its members, and then looks at what is missing. -/
theorem decode_object (name : String) (symbol : Shape σ) (start : Nat) (members : Members) :
    (GraphOf.shape name symbol).decode .ofText (.object start members) = (do
      let (slots, stop) ← decodeMembers (fields symbol).repeated (take symbol) members
        (fields symbol).unread
      let (metadata, module, symbols, relationships, ()) ← (fields symbol).complete stop slots
      return ⟨metadata, module, symbols, relationships⟩) := rfl

/-- Reading a graph from an array reads its items in the order of the fields. -/
theorem decode_array (name : String) (symbol : Shape σ) (start : Nat) (items : Items) :
    (GraphOf.shape name symbol).decode .ofText (.array start items) = (do
      let ((metadata, module, symbols, relationships, ()), rest) ←
        (fields symbol).decodeInOrder partDepth (fieldCount name 4) 0 items
      checkSurplus partDepth items rest
      return ⟨metadata, module, symbols, relationships⟩) := rfl

/-- Whether the same has been read of two graphs, apart from their symbols, of which it only
matters whether they have been read. -/
structure SlotsAlike (s : (fields symbol).Slots) (t : (fields symbol').Slots) : Prop where
  metadata : s.1 = t.1
  module : s.2.1 = t.2.1
  symbols : s.2.2.1.isSome = t.2.2.1.isSome
  relationships : s.2.2.2 = t.2.2.2

section Members

variable {s : (fields symbol).Slots} {t : (fields symbol').Slots} {key : String} {value : Node}

theorem take_metadata : take symbol "metadata" value s =
    (Metadata.shape.decode partDepth value).map fun a => (some a, s.2) := by
  simp only [take, fields, listFields, relationshipField, Fields.store, if_true,
    Option.getD_some]
  rfl

theorem take_module : take symbol "module" value s =
    (Module.shape.decode partDepth value).map fun a => (s.1, some a, s.2.2) := by
  simp only [take, fields, listFields, relationshipField, Fields.store]
  cases Module.shape.decode partDepth value <;> rfl

theorem take_symbols : take symbol "symbols" value s =
    ((Shape.list symbol).decode partDepth value).map fun a =>
    (s.1, s.2.1, some a, s.2.2.2) := by
  simp only [take, fields, listFields, relationshipField, Fields.store]
  cases (Shape.list symbol).decode partDepth value <;> rfl

theorem take_relationships : take symbol "relationships" value s =
    ((Shape.list Relationship.shape).decode partDepth value).map fun a =>
      (s.1, s.2.1, s.2.2.1, some a, s.2.2.2.2) := by
  simp only [take, fields, listFields, relationshipField, Fields.store]
  cases (Shape.list Relationship.shape).decode partDepth value <;> rfl

/-- A member that is no field is passed over. -/
theorem take_other (h : key ∉ (fields symbol).keys) :
    take symbol key value s = value.skip.map fun _ => s := by
  simp only [fields, listFields, relationshipField, Fields.keys, List.mem_cons,
    List.not_mem_nil, or_false, not_or] at h
  obtain ⟨h1, h2, h3, h4⟩ := h
  simp only [take, fields, listFields, relationshipField, Fields.store, h1, h2, h3, h4,
    if_false]
  cases value.skip <;> rfl

/-- Members under other keys than that of the symbols are read alike, and have nothing to do
with the symbols. -/
theorem take_alike (h : SlotsAlike s t) (hkey : key ≠ "symbols") :
    (take symbol key value s).Alike
      (fun (s' : (fields symbol).Slots) (t' : (fields symbol').Slots) =>
        SlotsAlike s' t' ∧ s'.2.2.1 = s.2.2.1)
      (take symbol' key value t) := by
  obtain ⟨hmetadata, hmodule, hsymbols, hrelationships⟩ := h
  by_cases hfield : key ∈ (fields symbol).keys
  · simp only [fields, listFields, relationshipField, Fields.keys, List.mem_cons,
      List.not_mem_nil, or_false] at hfield
    obtain rfl | rfl | rfl | rfl := hfield
    · rw [take_metadata, take_metadata]
      exact (Except.Alike.refl _).map fun _ _ heq =>
        ⟨⟨congrArg some heq, hmodule, hsymbols, hrelationships⟩, rfl⟩
    · rw [take_module, take_module]
      exact (Except.Alike.refl _).map fun _ _ heq =>
        ⟨⟨hmetadata, congrArg some heq, hsymbols, hrelationships⟩, rfl⟩
    · exact absurd rfl hkey
    · rw [take_relationships, take_relationships]
      exact (Except.Alike.refl _).map fun _ _ heq =>
        ⟨⟨hmetadata, hmodule, hsymbols, congrArg (fun a => (some a, ())) heq⟩, rfl⟩
  · have hfield' : key ∉ (fields symbol').keys := hfield
    rw [take_other hfield, take_other hfield']
    exact (Except.Alike.refl _).map fun _ _ _ =>
      ⟨⟨hmetadata, hmodule, hsymbols, hrelationships⟩, rfl⟩

/-- Keys are repeated in both of two graphs or in none. -/
theorem repeated_eq (h : SlotsAlike s t) (key : String) :
    (fields symbol).repeated key s = (fields symbol').repeated key t := by
  obtain ⟨hmetadata, hmodule, hsymbols, hrelationships⟩ := h
  simp only [fields, listFields, relationshipField, Fields.repeated]
  rw [hmetadata, hmodule, hsymbols, hrelationships]

/-- What has been read of two graphs is completed alike. -/
theorem complete_alike (h : SlotsAlike s t) (stop : Nat) :
    ((fields symbol).complete stop s).Alike (fun _ _ => True)
      ((fields symbol').complete stop t) := by
  obtain ⟨metadata, module, symbols, relationships, ⟨⟩⟩ := s
  obtain ⟨metadata', module', symbols', relationships', ⟨⟩⟩ := t
  obtain ⟨hmetadata, hmodule, -, -⟩ := h
  dsimp only at hmetadata hmodule
  subst hmetadata hmodule
  cases metadata with
  | none => exact .error _
  | some metadata =>
    cases module with
    | none => exact .error _
    | some module => exact .ok trivial

end Members

/-- Whether a node is read alike as the list of symbols of a graph, with the symbols left as
they stand and with the symbols read. -/
def ListsAlike (symbol : Shape σ) (node : Node) : Prop :=
  ((Shape.list .raw).decode partDepth node).Alike (fun _ _ => True)
    ((Shape.list symbol).decode partDepth node)

/-- Whether the list of symbols that reading some members comes to is read alike, unless the
symbols have been read already. -/
def MeetsAlike (symbol : Shape σ) (members : Members) (s : (fields Shape.raw).Slots) : Prop :=
  s.2.2.1 = none → ∀ node,
    members.met (fields .raw).repeated (take .raw) "symbols" s = some node →
      ListsAlike symbol node

/-- The key of the symbols is repeated if they have been read. -/
theorem repeated_symbols (s : (fields symbol).Slots) :
    (fields symbol).repeated "symbols" s = none ↔ s.2.2.1 = none := by
  simp only [fields, listFields, relationshipField, Fields.repeated, Fields.repeated.again]
  cases s.2.2.1 <;> simp

/-- A member is read alike, and so are the symbols that reading the others comes to. -/
theorem take_meetsAlike {spelling : Spelling} {pause after : Nat} {value : Node}
    {rest : Members} {s : (fields Shape.raw).Slots} {t : (fields symbol).Slots} {name : String}
    (h : SlotsAlike s t) (hname : spelling.text = .ok name)
    (hrepeated : (fields .raw).repeated name s = none)
    (met : MeetsAlike symbol (.member spelling pause value after rest) s) :
    (take .raw name value s).Alike (fun s' t' => SlotsAlike s' t' ∧ MeetsAlike symbol rest s')
      (take symbol name value t) := by
  by_cases hsymbols : name = "symbols"
  · subst hsymbols
    have hlists : ListsAlike symbol value := by
      refine met (repeated_symbols s |>.mp hrepeated) value ?_
      simp only [Members.met, hname, if_true]
    rw [take_symbols, take_symbols]
    refine hlists.map fun _ _ _ => ⟨⟨h.metadata, h.module, rfl, h.relationships⟩, ?_⟩
    -- no list after this one is read: its key is repeated
    intro hnone
    cases hnone
  · -- another member leaves the symbols as they are, so that reading comes to the same list
    refine (take_alike h hsymbols).imp fun s' t' hs' halike =>
      ⟨halike.1, fun hnone node hnode => ?_⟩
    refine met (halike.2 ▸ hnone) node ?_
    simp only [Members.met, hname, if_neg hsymbols, hrepeated, hs']
    exact hnode

/-- Members are read alike if the symbols that reading comes to are. -/
theorem decodeMembers_alike : (members : Members) →
    {s : (fields Shape.raw).Slots} → {t : (fields symbol).Slots} → SlotsAlike s t →
    MeetsAlike symbol members s →
    (decodeMembers (fields .raw).repeated (take .raw) members s).Alike
      (fun a b => SlotsAlike a.1 b.1 ∧ a.2 = b.2)
      (decodeMembers (fields symbol).repeated (take symbol) members t)
  | .member spelling pause value after rest, s, t, h, met => by
    unfold decodeMembers
    cases hname : spelling.text with
    | error e => exact .error e
    | ok name =>
      simp only [Except.ok_bind, ← repeated_eq h name]
      cases hrepeated : (fields Shape.raw).repeated name s with
      | some cause => exact .error _
      | none =>
        exact (take_meetsAlike h hname hrepeated met).bind fun _ _ _ hrest =>
          decodeMembers_alike rest hrest.1 hrest.2
  | .halted key pause fault, s, t, h, _ => by
    unfold decodeMembers
    cases key.text with
    | error e => exact .error e
    | ok name =>
      simp only [Except.ok_bind, ← repeated_eq h name]
      cases (fields Shape.raw).repeated name s <;> exact .error _
  | .close _, s, t, h, _ => .ok ⟨h, rfl⟩
  | .badKey _, _, _, _, _ | .noKey _, _, _, _, _ | .trailing _, _, _, _, _
  | .unfinished _, _, _, _, _
  | .stray _, _, _, _, _ | .ended _, _, _, _, _ => .error _

end GraphOf

/-- The node that reading a graph comes to as its list of symbols. -/
def Json.Node.symbolsMet : Node → Option Node
  | .object _ members =>
    members.met (GraphOf.fields .raw).repeated (GraphOf.take .raw) "symbols"
      (GraphOf.fields .raw).unread
  | .array _ (.item _ metadata (.item _ module (.item _ symbols _))) =>
    if (Metadata.shape.decode GraphOf.partDepth metadata).toBool &&
        (Module.shape.decode GraphOf.partDepth module).toBool then some symbols
    else none
  | _ => none

/-- Whether the fault of a node says what was to be read: a node of another kind, or an
array that ends before the two fields that must be there. -/
def Json.Node.isNoGraph : Node → Bool
  | .object _ _ => false
  | .array _ (.close _) => true
  | .array _ (.item _ metadata (.close _)) =>
    (Metadata.shape.decode GraphOf.partDepth metadata).toBool
  | .array _ _ => false
  | node => (found node).toBool

namespace GraphOf

section Items

variable {σ : Type} {symbol : Shape σ} {due due' : String} {start : Nat} {items : Items}

/-- Whether the same items are left after two readings. -/
def LeavesSame {α β : Type} (a : α × Items) (b : β × Items) : Prop := a.2 = b.2

/-- A value read before does not change which items are left. -/
theorem leavesSame_cons {α α' β β' : Type} {x : Except Fault (β × Items)}
    {y : Except Fault (β' × Items)} (h : x.Alike LeavesSame y) (a : α) (a' : α') :
    (x >>= fun r => pure ((a, r.1), r.2)).Alike LeavesSame (y >>=
      fun r => pure ((a', r.1), r.2)) :=
  h.bind fun _ _ _ hrest => .ok hrest

/-- The last field of a graph may be missing, so reading it does not depend on what the
graph is called. -/
theorem relationshipField_alike (due due' : String) (items : Items) :
    (relationshipField.decodeInOrder partDepth due 3 items).Alike LeavesSame
      (relationshipField.decodeInOrder partDepth due' 3 items) := by
  simp only [relationshipField, Fields.decodeInOrder]
  exact (Except.Alike.refl _).imp fun _ _ _ heq => congrArg Prod.snd heq

/-- The lists of a graph are read alike from items if the symbols are. -/
theorem decodeLists_alike
    (met : ∀ seen node rest, items = .item seen node rest → ListsAlike symbol node) :
    ((listFields .raw).decodeInOrder partDepth due 2 items).Alike LeavesSame
      ((listFields symbol).decodeInOrder partDepth due' 2 items) := by
  rw [listFields, listFields, Fields.decodeInOrder, Fields.decodeInOrder]
  cases items with
  | close stop => exact leavesSame_cons (relationshipField_alike due due' (.close stop)) [] []
  | trailing _ | stray _ | ended _ => exact .error _
  | item seen node rest =>
    have hlist :
        ((Shape.list .raw).decode partDepth node |>.map fun a => (a, rest)).Alike LeavesSame
        ((Shape.list symbol).decode partDepth node |>.map fun a => (a, rest)) :=
      (met seen node rest rfl).map fun _ _ _ => rfl
    refine hlist.bind ?_
    rintro ⟨symbols, rest⟩ ⟨symbols', _⟩ - rfl
    exact leavesSame_cons (relationshipField_alike due due' rest) symbols symbols'

/-- The fields of a graph are read alike from the items of an array if the symbols are. -/
theorem decodeInOrder_alike (graph : (Node.array start items).isNoGraph = false)
    (met : ∀ node, (Node.array start items).symbolsMet = some node → ListsAlike symbol node) :
    ((fields .raw).decodeInOrder partDepth due 0 items).Alike LeavesSame
      ((fields symbol).decodeInOrder partDepth due' 0 items) := by
  rw [fields, fields, Fields.decodeInOrder, Fields.decodeInOrder]
  cases items with
  | close _ => cases graph
  | trailing _ | stray _ | ended _ => exact .error _
  | item _ metadata items =>
    refine (Except.Alike.refl (Metadata.shape.decode partDepth metadata)).bind ?_
    rintro m _ hmetadata rfl
    refine leavesSame_cons ?_ m m
    rw [Fields.decodeInOrder, Fields.decodeInOrder]
    cases items with
    | close _ => simp [Node.isNoGraph, hmetadata, Except.toBool] at graph
    | trailing _ | stray _ | ended _ => exact .error _
    | item _ module items =>
      refine (Except.Alike.refl (Module.shape.decode partDepth module)).bind ?_
      rintro n _ hmodule rfl
      refine leavesSame_cons (decodeLists_alike ?_) n n
      rintro seen node rest rfl
      refine met node ?_
      simp [Node.symbolsMet, hmetadata, hmodule, Except.toBool]

end Items

variable {σ : Type} {symbol : Shape σ}

/-- A graph is read alike with the symbols left as they stand and with the symbols read,
under whatever names, if the list of symbols that reading comes to is read alike. -/
theorem decode_alike (name name' : String) {root : Node} (graph : root.isNoGraph = false)
    (met : ∀ node, root.symbolsMet = some node → ListsAlike symbol node) :
    ((GraphOf.shape name .raw).decode .ofText root).Alike (fun _ _ => True)
      ((GraphOf.shape name' symbol).decode .ofText root) := by
  cases root with
  | object start members =>
    rw [decode_object, decode_object]
    have hunread : SlotsAlike (fields .raw).unread (fields symbol).unread :=
      ⟨rfl, rfl, rfl, rfl⟩
    refine (decodeMembers_alike members hunread fun _ => met).bind ?_
    rintro ⟨s, stop⟩ ⟨t, _⟩ - ⟨hslots, rfl⟩
    exact (complete_alike hslots stop).bind fun _ _ _ _ => .ok trivial
  | array start items =>
    rw [decode_array, decode_array]
    refine (decodeInOrder_alike graph met).bind ?_
    rintro ⟨_, rest⟩ ⟨_, _⟩ - rfl
    exact (Except.Alike.refl (checkSurplus partDepth items rest)).bind
      fun _ _ _ _ => .ok trivial
  | null _ | bool _ _ | number _ _ _ | text _ | broken _ _ | brokenText _ | missing _ =>
    refine mismatch_alike_of_notFound ("struct " ++ name) ("struct " ++ name') ?_
    exact graph

end GraphOf

end ApiSurface
