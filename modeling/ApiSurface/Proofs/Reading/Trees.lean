import ApiSurface.Proofs.Results
import ApiSurface.Wire.Decode

/-!
# Trees and their parts

The items of an array, and the members of an object, are chains that end in a bracket or in
a fault. Where the bracket is in place, the parts form a list, and what holds of an array or
object is told by this list. Properties of trees are proved by induction on their parts, and
properties of what is kept of a tree by induction on both at once, so that no later proof
follows the chains.

## Main definitions

* `Items.nodes?`, `Members.entries?`: the parts of an array or object
  whose bracket is in place.

## Main results

* `Items.rec_nodes`, `Members.rec_entries`: induction along a chain whose bracket is in place.
* `Items.forall_of_nodes`, `Members.forall_of_entries`: what holds along a chain
  holds of its parts.
* `Node.rec_parts`: induction on the parts of a node.
* `nodes_itemNodes`, `entries_memberNodes`: the parts of a value written as a tree.
* `Items.keep_eq_ok_iff`, `Members.keep_eq_ok_iff`: what is kept of the parts, one by one.
* `Node.hasForm_of_keep`: what a node is, seen from the value that it is kept as.
* `Node.rec_kept`: induction on a node and the value that it is kept as.
-/

namespace ApiSurface

open Json

/-! ### Brackets that match -/

/-- The items of an array whose closing bracket is in place. -/
def Json.Items.nodes? : Items → Option (List Node)
  | .close _ => some []
  | .item _ value rest => rest.nodes?.map (value :: ·)
  | _ => none

/-- The members of an object whose closing brace is in place, with the keys they spell. -/
def Json.Members.entries? : Members → Option (List (String × Node))
  | .close _ => some []
  | .member key _ value _ rest =>
    match key.text with
    | .ok name => rest.entries?.map ((name, value) :: ·)
    | .error _ => none
  | _ => none

namespace Json

/-- Induction along the items of an array whose bracket is in place. -/
theorem Items.rec_nodes
    {P : (items : Items) → (nodes : List Node) → items.nodes? = some nodes → Prop}
    (close : ∀ stop, P (.close stop) [] rfl)
    (item : ∀ seen value rest nodes (h : rest.nodes? = some nodes), P rest nodes h →
      P (.item seen value rest) (value :: nodes) (by rw [Items.nodes?, h]; rfl))
    {items : Items} {nodes : List Node} (h : items.nodes? = some nodes) : P items nodes h := by
  match items with
  | .close stop =>
    cases h
    exact close stop
  | .item seen value rest =>
    obtain ⟨later, hlater, rfl⟩ := Option.map_eq_some_iff.mp h
    exact item seen value rest later hlater (Items.rec_nodes close item hlater)
  | .trailing _ | .stray _ | .ended _ => cases h

/-- Induction along the members of an object whose brace is in place. -/
theorem Members.rec_entries
    {P : (members : Members) → (entries : List (String × Node)) →
      members.entries? = some entries → Prop}
    (close : ∀ stop, P (.close stop) [] rfl)
    (member : ∀ key pause value after rest name entries (hname : key.text = .ok name)
      (h : rest.entries? = some entries), P rest entries h →
      P (.member key pause value after rest) ((name, value) :: entries)
        (by simp [Members.entries?, hname, h]))
    {members : Members} {entries : List (String × Node)}
    (h : members.entries? = some entries) : P members entries h := by
  match members with
  | .close stop =>
    cases h
    exact close stop
  | .member key pause value after rest =>
    cases hname : key.text with
    | error fault => simp [Members.entries?, hname] at h
    | ok name =>
      simp only [Members.entries?, hname, Option.map_eq_some_iff] at h
      obtain ⟨later, hlater, rfl⟩ := h
      exact member key pause value after rest name later hname hlater
        (Members.rec_entries close member hlater)
  | .halted _ _ _ | .badKey _ | .noKey _ | .trailing _ | .unfinished _ | .stray _
  | .ended _ => cases h

/-- What a property of items says of each one holds of all items of an array whose bracket
is in place. -/
theorem Items.forall_of_nodes {P : Node → Prop} {Q : Items → Prop}
    (step : ∀ {seen value rest}, Q (.item seen value rest) → P value ∧ Q rest) {items : Items}
    (hitems : Q items) {nodes : List Node} (h : items.nodes? = some nodes) :
    ∀ node ∈ nodes, P node := by
  induction h using Items.rec_nodes with
  | close stop => nofun
  | item seen value rest nodes _ ih =>
    obtain ⟨hvalue, hrest⟩ := step hitems
    exact List.forall_mem_cons.mpr ⟨hvalue, ih hrest⟩

/-- What a property of members says of each one holds of all members of an object whose
brace is in place. -/
theorem Members.forall_of_entries {P : String × Node → Prop} {Q : Members → Prop}
    (step : ∀ {key pause value after rest name}, key.text = .ok name →
      Q (.member key pause value after rest) → P (name, value) ∧ Q rest)
    {members : Members} (hmembers : Q members) {entries : List (String × Node)}
    (h : members.entries? = some entries) : ∀ entry ∈ entries, P entry := by
  induction h using Members.rec_entries with
  | close stop => nofun
  | member key pause value after rest name entries hname _ ih =>
    obtain ⟨hvalue, hrest⟩ := step hname hmembers
    exact List.forall_mem_cons.mpr ⟨hvalue, ih hrest⟩

/-- Items are smaller than the chain that they are on. -/
theorem Items.sizeOf_lt {items : Items} {nodes : List Node} (h : items.nodes? = some nodes) :
    ∀ node ∈ nodes, sizeOf node < sizeOf items := by
  induction h using Items.rec_nodes with
  | close stop => nofun
  | item seen value rest nodes _ ih =>
    rw [Items.item.sizeOf_spec]
    refine List.forall_mem_cons.mpr ⟨by omega, fun node hnode => ?_⟩
    have := ih node hnode
    omega

/-- Values of members are smaller than the chain that they are on. -/
theorem Members.sizeOf_lt {members : Members} {entries : List (String × Node)}
    (h : members.entries? = some entries) :
    ∀ entry ∈ entries, sizeOf entry.2 < sizeOf members := by
  induction h using Members.rec_entries with
  | close stop => nofun
  | member key pause value after rest name entries _ _ ih =>
    rw [Members.member.sizeOf_spec]
    refine List.forall_mem_cons.mpr ⟨by dsimp only; omega, fun entry hentry => ?_⟩
    have := ih entry hentry
    omega

/-- A property holds of all nodes if it holds of each one whose parts have it. -/
theorem Node.rec_parts {P : Node → Prop} (null : ∀ start, P (.null start))
    (bool : ∀ b start, P (.bool b start))
    (number : ∀ start value stop, P (.number start value stop))
    (text : ∀ spelling, P (.text spelling))
    (array : ∀ start items, (∀ nodes, items.nodes? = some nodes → ∀ node ∈ nodes, P node) →
      P (.array start items))
    (object : ∀ start members,
      (∀ entries, members.entries? = some entries → ∀ entry ∈ entries, P entry.2) →
      P (.object start members))
    (broken : ∀ start blame, P (.broken start blame))
    (brokenText : ∀ blame, P (.brokenText blame)) (missing : ∀ stop, P (.missing stop))
    (node : Node) : P node := by
  match node with
  | .null start => exact null start
  | .bool b start => exact bool b start
  | .number start value stop => exact number start value stop
  | .text spelling => exact text spelling
  | .array start items =>
    refine array start items fun nodes hnodes item hitem => ?_
    have := Items.sizeOf_lt hnodes item hitem
    exact Node.rec_parts null bool number text array object broken brokenText missing item
  | .object start members =>
    refine object start members fun entries hentries (_, value) hentry => ?_
    have := Members.sizeOf_lt hentries _ hentry
    exact Node.rec_parts null bool number text array object broken brokenText missing value
  | .broken start blame => exact broken start blame
  | .brokenText blame => exact brokenText blame
  | .missing stop => exact missing stop
termination_by sizeOf node
decreasing_by all_goals simp_all; omega

/-! ### Values as trees -/

/-- The items of an array written as a tree. -/
theorem nodes_itemNodes (values : List Value) :
    (itemNodes values).nodes? = some (values.map Value.node) := by
  induction values with
  | nil => rfl
  | cons value values ih => rw [itemNodes, Items.nodes?, ih, Option.map_some, List.map_cons]

/-- The members of an object written as a tree. -/
theorem entries_memberNodes (members : List (String × Value)) :
    (memberNodes members).entries? = some (members.map fun m => (m.1, m.2.node)) := by
  induction members with
  | nil => rfl
  | cons member members ih =>
    obtain ⟨key, value⟩ := member
    simp only [memberNodes, Members.entries?, Spelling.ofText, ih, Option.map_some,
      List.map_cons]

end Json

/-! ### Items one by one -/

/-- All items of an array can be read exactly when its bracket is in place and each item
can be read. -/
theorem Wire.decodeItems_eq_ok_iff {α : Type} {decode : Node → Except Fault α} (items : Items)
    {as : List α} :
    decodeItems decode items = .ok as ↔
      ∃ nodes, items.nodes? = some nodes ∧
        List.Forall₂ (fun node a => decode node = .ok a) nodes as := by
  match items with
  | .close _ => simp [decodeItems, Items.finish, Items.nodes?, eq_comm]
  | .item _ value rest =>
    simp only [decodeItems, Except.bind_eq_ok_iff, Except.pure_eq_ok_iff, Items.nodes?,
      Option.map_eq_some_iff, decodeItems_eq_ok_iff rest]
    constructor
    · rintro ⟨a, ha, as, ⟨nodes, hnodes, has⟩, rfl⟩
      exact ⟨_, ⟨nodes, hnodes, rfl⟩, .cons ha has⟩
    · rintro ⟨_, ⟨nodes, hnodes, rfl⟩, h⟩
      cases h with
      | cons ha has => exact ⟨_, ha, _, ⟨nodes, hnodes, has⟩, rfl⟩
  | .trailing _ | .stray _ | .ended _ => simp [decodeItems, Items.finish, Items.nodes?]

/-! ### What is kept -/

/-- Whether a member is kept with a value. -/
def Wire.Keeps (depth : Depth) (entry : String × Node) (kept : String × Value) : Prop :=
  entry.1 = kept.1 ∧ entry.2.keep depth = .ok kept.2

namespace Json

open Wire

variable {depth : Depth}

/-- To keep items is to read each of them as it stands. -/
theorem Items.keep_eq_decodeItems :
    (items : Items) → items.keep depth = decodeItems (Node.keep depth) items
  | .item _ value rest => by rw [Items.keep, decodeItems, Items.keep_eq_decodeItems rest]
  | .close _ | .trailing _ | .stray _ | .ended _ => rfl

/-- Items are kept exactly if the bracket is in place and each item is kept. -/
theorem Items.keep_eq_ok_iff (items : Items) {values : List Value} :
    items.keep depth = .ok values ↔
      ∃ nodes, items.nodes? = some nodes ∧
        List.Forall₂ (fun node v => node.keep depth = .ok v) nodes values := by
  rw [Items.keep_eq_decodeItems, decodeItems_eq_ok_iff]

/-- Members are kept exactly if the brace is in place and each member is kept. -/
theorem Members.keep_eq_ok_iff (members : Members) {kept : List (String × Value)} :
    members.keep depth = .ok kept ↔
      ∃ entries, members.entries? = some entries ∧
        List.Forall₂ (Keeps depth) entries kept := by
  match members with
  | .close _ => simp [Members.keep, Members.finish, Members.entries?, eq_comm]
  | .member key _ value _ rest =>
    simp only [Members.keep, Except.bind_eq_ok_iff, Except.pure_eq_ok_iff, Members.entries?,
      Members.keep_eq_ok_iff rest]
    constructor
    · rintro ⟨name, hname, v, hv, kept, ⟨entries, hentries, hkept⟩, rfl⟩
      exact ⟨(name, value) :: entries, by simp [hname, hentries], .cons ⟨rfl, hv⟩ hkept⟩
    · rintro ⟨entries, hentries, hkept⟩
      cases hname : key.text with
      | error fault => simp [hname] at hentries
      | ok name =>
        simp only [hname, Option.map_eq_some_iff] at hentries
        obtain ⟨later, hlater, rfl⟩ := hentries
        cases hkept with
        | @cons _ member _ kept hmember hkept =>
          obtain ⟨_, v⟩ := member
          obtain ⟨rfl, hv⟩ := hmember
          exact ⟨name, rfl, v, hv, kept, ⟨later, hlater, hkept⟩, rfl⟩
  | .halted key _ fault => simp [Members.keep, Members.finish, Members.entries?]
  | .badKey _ | .noKey _ | .trailing _ | .unfinished _ | .stray _ | .ended _ =>
    simp [Members.keep, Members.finish, Members.entries?]

/-- An array is kept as the array of what its items are kept as. -/
theorem Node.keep_array_iff {start : Nat} {items : Items} {v : Value} :
    (Node.array start items).keep depth = .ok v ↔
      ∃ inner nodes values, depth.enter start = .ok inner ∧ items.nodes? = some nodes ∧
        List.Forall₂ (fun node v => node.keep inner = .ok v) nodes values ∧
        v = .array values := by
  simp only [Node.keep, Except.bind_eq_ok_iff, Except.pure_eq_ok_iff, Items.keep_eq_ok_iff]
  constructor
  · rintro ⟨inner, henter, values, ⟨nodes, hnodes, hvalues⟩, rfl⟩
    exact ⟨inner, nodes, values, henter, hnodes, hvalues, rfl⟩
  · rintro ⟨inner, nodes, values, henter, hnodes, hvalues, rfl⟩
    exact ⟨inner, henter, values, ⟨nodes, hnodes, hvalues⟩, rfl⟩

/-- An object is kept as the object of what its members are kept as. -/
theorem Node.keep_object_iff {start : Nat} {members : Members} {v : Value} :
    (Node.object start members).keep depth = .ok v ↔
      ∃ inner entries kept, depth.enter start = .ok inner ∧ members.entries? = some entries ∧
        List.Forall₂ (Keeps inner) entries kept ∧ v = .object kept := by
  simp only [Node.keep, Except.bind_eq_ok_iff, Except.pure_eq_ok_iff, Members.keep_eq_ok_iff]
  constructor
  · rintro ⟨inner, henter, kept, ⟨entries, hentries, hkept⟩, rfl⟩
    exact ⟨inner, entries, kept, henter, hentries, hkept, rfl⟩
  · rintro ⟨inner, entries, kept, henter, hentries, hkept, rfl⟩
    exact ⟨inner, henter, kept, ⟨entries, hentries, hkept⟩, rfl⟩

/-- What a node is that spells a value under a bound on nesting. -/
def Node.HasForm (depth : Depth) (node : Node) : Value → Prop
  | .null => ∃ start, node = .null start
  | .bool b => ∃ start, node = .bool b start
  | .number n => ∃ start stop, node = .number start (.ok n) stop
  | .text s => ∃ spelling, node = .text spelling ∧ spelling.text = .ok s
  | .array values =>
    ∃ start items inner nodes, node = .array start items ∧ depth.enter start = .ok inner ∧
      items.nodes? = some nodes ∧
      List.Forall₂ (fun node v => node.keep inner = .ok v) nodes values
  | .object kept => ∃ start members inner entries, node = .object start members ∧
      depth.enter start = .ok inner ∧ members.entries? = some entries ∧
      List.Forall₂ (Keeps inner) entries kept

/-- A node that is kept as a value has its form. -/
theorem Node.hasForm_of_keep {node : Node} {v : Value} (h : node.keep depth = .ok v) :
    node.HasForm depth v := by
  cases node with
  | null start | bool b start =>
    cases h
    exact ⟨start, rfl⟩
  | number start value stop =>
    obtain ⟨n, rfl, rfl⟩ := Except.map_eq_ok_iff.mp h
    exact ⟨start, stop, rfl⟩
  | text spelling =>
    obtain ⟨s, hs, rfl⟩ := Except.map_eq_ok_iff.mp h
    exact ⟨spelling, rfl, hs⟩
  | array start items =>
    obtain ⟨inner, nodes, values, henter, hnodes, hvalues, rfl⟩ := Node.keep_array_iff.mp h
    exact ⟨start, items, inner, nodes, rfl, henter, hnodes, hvalues⟩
  | object start members =>
    obtain ⟨inner, entries, kept, henter, hentries, hkept, rfl⟩ := Node.keep_object_iff.mp h
    exact ⟨start, members, inner, entries, rfl, henter, hentries, hkept⟩
  | broken _ _ | brokenText _ | missing _ => cases h

/-- Induction on a node and the value that it is kept as. -/
theorem Node.rec_kept {P : Node → Value → Prop} (null : ∀ start, P (.null start) .null)
    (bool : ∀ b start, P (.bool b start) (.bool b))
    (number : ∀ start n stop, P (.number start (.ok n) stop) (.number n))
    (text : ∀ spelling s, spelling.text = .ok s → P (.text spelling) (.text s))
    (array : ∀ start items nodes values, items.nodes? = some nodes →
      List.Forall₂ P nodes values → P (.array start items) (.array values))
    (object : ∀ start members entries kept, members.entries? = some entries →
      List.Forall₂ (fun entry member => entry.1 = member.1 ∧ P entry.2 member.2) entries kept →
      P (.object start members) (.object kept))
    {node : Node} {v : Value} (h : node.keep depth = .ok v) : P node v := by
  induction node using Node.rec_parts generalizing depth v with
  | null start =>
    cases h
    exact null start
  | bool b start =>
    cases h
    exact bool b start
  | number start value stop =>
    obtain ⟨n, rfl, rfl⟩ := Except.map_eq_ok_iff.mp h
    exact number start n stop
  | text spelling =>
    obtain ⟨s, hs, rfl⟩ := Except.map_eq_ok_iff.mp h
    exact text spelling s hs
  | array start items ih =>
    obtain ⟨inner, nodes, values, -, hnodes, hvalues, rfl⟩ := Node.keep_array_iff.mp h
    exact array start items nodes values hnodes
      ((Except.forall₂_mem hvalues).imp fun node _ h => ih nodes hnodes node h.1 h.2.2)
  | object start members ih =>
    obtain ⟨inner, entries, kept, -, hentries, hkept, rfl⟩ := Node.keep_object_iff.mp h
    exact object start members entries kept hentries
      ((Except.forall₂_mem hkept).imp fun entry _ h =>
        ⟨h.2.2.1, ih entries hentries entry h.1 h.2.2.2⟩)
  | broken _ _ | brokenText _ | missing _ => cases h

end Json

end ApiSurface
