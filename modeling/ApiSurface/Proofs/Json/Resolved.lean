import ApiSurface.Proofs.Json.Sorted

/-!
# The value tree of a text

A text of which nothing else is known is read as a value with the members of its objects in key
order: of several members with one key the last one counts, and an object with the embedding
key stands for the text under it. If no object of the text repeats a key, and none has the
embedding key, neither happens, and the tree is what the text spells, put in key order.

## Main definitions

* `Value.ofBytes`: the value tree of a text.
* `Node.IsOrderly`, `Value.IsOrderly`: nothing in a text, or in a value, is lost when it is
  put in key order.

## Main results

* `Node.keep_of_resolve`: the tree of an orderly text is what the text
  spells, put in key order.
* `Value.exists_kept_of_ofBytes`: the same for whole texts.
-/

namespace ApiSurface.Json

/-- The value that a text spells, with the members of objects in key order. -/
def Value.ofBytes (text : List UInt8) : Except Diagnostic Value :=
  ((Document.ofBytes text).use (Node.resolve opened .ofText)).mapError (Fault.locate text)

/-! ### Orderly texts -/

/-- The keys of some members, as far as they have texts. -/
def Members.keys : Members → List String
  | .member key _ _ _ rest => key.text.toOption.toList ++ rest.keys
  | _ => []

mutual
/-- Whether no object of a node repeats a key or has the embedding key. -/
def Node.IsOrderly : Node → Prop
  | .array _ items => items.AreOrderly
  | .object _ members => members.keys.Nodup ∧ embeddingKey ∉ members.keys ∧ members.AreOrderly
  | _ => True

/-- Whether no object of some items repeats a key or has the embedding key. -/
def Items.AreOrderly : Items → Prop
  | .item _ value rest => value.IsOrderly ∧ rest.AreOrderly
  | _ => True

/-- Whether no object in the values of some members repeats a key or has the embedding key. -/
def Members.AreOrderly : Members → Prop
  | .member _ _ value _ rest => value.IsOrderly ∧ rest.AreOrderly
  | _ => True
end

mutual
/-- It can be found out whether a node is orderly. -/
def Node.decideOrderly : (node : Node) → Decidable node.IsOrderly
  | .array _ items => items.decideOrderly
  | .object _ members =>
    have := members.decideOrderly
    inferInstanceAs (Decidable (members.keys.Nodup ∧ embeddingKey ∉ members.keys ∧
      members.AreOrderly))
  | .null _ | .bool _ _ | .number _ _ _ | .text _ | .broken _ _ | .brokenText _ | .missing _ =>
    isTrue trivial

/-- It can be found out whether items are orderly. -/
def Items.decideOrderly : (items : Items) → Decidable items.AreOrderly
  | .item _ value rest =>
    have := value.decideOrderly
    have := rest.decideOrderly
    inferInstanceAs (Decidable (value.IsOrderly ∧ rest.AreOrderly))
  | .close _ | .trailing _ | .stray _ | .ended _ => isTrue trivial

/-- It can be found out whether members are orderly. -/
def Members.decideOrderly : (members : Members) → Decidable members.AreOrderly
  | .member _ _ value _ rest =>
    have := value.decideOrderly
    have := rest.decideOrderly
    inferInstanceAs (Decidable (value.IsOrderly ∧ rest.AreOrderly))
  | .close _ | .halted _ _ _ | .badKey _ | .noKey _ | .trailing _ | .unfinished _ | .stray _
  | .ended _ =>
    isTrue trivial
end

instance : DecidablePred Node.IsOrderly := Node.decideOrderly

/-- The items of an orderly array are orderly. -/
theorem Items.isOrderly_of_nodes {items : Items} (orderly : items.AreOrderly)
    {nodes : List Node} (h : items.nodes? = some nodes) : ∀ node ∈ nodes, node.IsOrderly :=
  Items.forall_of_nodes (fun orderly => orderly) orderly h

/-- The members of an orderly object have orderly values. -/
theorem Members.isOrderly_of_entries {members : Members} (orderly : members.AreOrderly)
    {entries : List (String × Node)} (h : members.entries? = some entries) :
    ∀ entry ∈ entries, entry.2.IsOrderly :=
  Members.forall_of_entries (fun _ orderly => orderly) orderly h

/-- The keys of members whose brace is in place. -/
theorem Members.keys_of_entries {members : Members} {entries : List (String × Node)}
    (h : members.entries? = some entries) : members.keys = entries.map Prod.fst := by
  induction h using Members.rec_entries with
  | close stop => rfl
  | member key pause value after rest name entries hname _ ih =>
    rw [Members.keys, hname, ih]
    rfl

/-! ### Orderly values -/

/-- Whether an object repeats no key, and does not have the embedding key. -/
def Value.IsOrderly : Value → Prop
  | .object members =>
    (members.Pairwise fun m m' => m.1 ≠ m'.1) ∧ ∀ member ∈ members, member.1 ≠ embeddingKey
  | _ => True

/-- What is kept of an orderly node is orderly everywhere. -/
theorem Node.isOrderly_of_keep {depth : Depth} {node : Node} (orderly : node.IsOrderly)
    {v : Value} (h : node.keep depth = .ok v) : v.Everywhere Value.IsOrderly := by
  refine Node.everywhere_of_keep ⟨fun orderly => Items.isOrderly_of_nodes orderly,
    fun orderly => Members.isOrderly_of_entries orderly.2.2⟩ ?_ orderly h
  intro depth node v orderly h
  cases v with
  | object kept =>
    obtain ⟨start, members, inner, entries, rfl, -, hentries, hkept⟩ := Node.hasForm_of_keep h
    obtain ⟨hnodup, hlacks, -⟩ := orderly
    have hkeys : members.keys = kept.map Prod.fst := by
      rw [Members.keys_of_entries hentries,
        Except.map_eq_of_forall₂ (fun _ _ h => h.1) hkept.flip]
    rw [hkeys] at hnodup hlacks
    exact ⟨List.pairwise_map.mp hnodup, fun member hmember hkey =>
      hlacks (hkey ▸ List.mem_map_of_mem hmember)⟩
  | _ => trivial

/-- An orderly value has the embedding key nowhere. -/
theorem Value.lacks_of_isOrderly {v : Value} (orderly : v.Everywhere Value.IsOrderly) :
    v.Everywhere (Value.Lacks embeddingKey) := by
  intro part hpart
  cases part with
  | object members => exact (orderly _ hpart).2
  | _ => trivial

mutual
/-- An orderly value is orderly in key order, too. -/
theorem Value.isOrderly_sorted : (v : Value) → v.Everywhere Value.IsOrderly →
    v.sorted.Everywhere Value.IsOrderly
  | .null, h | .bool _, h | .number _, h | .text _, h => h
  | .array items, h => by
    rw [Value.sorted, sortedItems_eq_map]
    refine Value.everywhere_array_iff.mpr ⟨trivial, List.forall_mem_map.mpr ?_⟩
    exact isOrderly_sortedItems items (Value.everywhere_array_iff.mp h).2
  | .object members, h => by
    obtain ⟨⟨hdistinct, hlacks⟩, heach⟩ := Value.everywhere_object_iff.mp h
    have hperm := sortedMembers_perm hdistinct
    have hmem {P : String × Value → Prop} (hP : ∀ member ∈ members,
        P (member.1, member.2.sorted)) :
        ∀ member ∈ sortedMembers members [], P member := fun member hmember =>
      List.forall_mem_map.mpr hP member (hperm.mem_iff.mp hmember)
    refine Value.everywhere_object_iff.mpr ⟨⟨?_, hmem hlacks⟩,
      hmem (isOrderly_sortedMembers members heach)⟩
    exact hperm.symm.pairwise (List.pairwise_map.mpr hdistinct) Ne.symm

/-- The same for the items of an array, one by one. -/
theorem isOrderly_sortedItems :
    (items : List Value) → (∀ item ∈ items, item.Everywhere Value.IsOrderly) →
    ∀ item ∈ items, item.sorted.Everywhere Value.IsOrderly
  | [], _ => nofun
  | item :: items, h => by
    obtain ⟨hitem, hitems⟩ := List.forall_mem_cons.mp h
    exact List.forall_mem_cons.mpr ⟨item.isOrderly_sorted hitem,
      isOrderly_sortedItems items hitems⟩

/-- The same for the members of an object, one by one. -/
theorem isOrderly_sortedMembers : (members : List (String × Value)) →
    (∀ member ∈ members, member.2.Everywhere Value.IsOrderly) →
    ∀ member ∈ members, member.2.sorted.Everywhere Value.IsOrderly
  | [], _ => nofun
  | (_, value) :: members, h => by
    obtain ⟨hvalue, hmembers⟩ := List.forall_mem_cons.mp h
    exact List.forall_mem_cons.mpr ⟨value.isOrderly_sorted hvalue,
      isOrderly_sortedMembers members hmembers⟩
end

/-- Putting a value in key order twice is putting it in key order. -/
theorem Value.sorted_sorted (v : Value) : v.sorted.sorted = v.sorted :=
  (v.same_sorted.sorted_eq v).symm

mutual
/-- A value written as a tree is kept as it is. -/
theorem Value.keep_node : (v : Value) → v.node.keep .unbounded = .ok v
  | .null | .bool _ | .number _ | .text _ => rfl
  | .array items => Node.keep_array_iff.mpr
      ⟨.unbounded, _, items, rfl, nodes_itemNodes items, keep_itemNodes items, rfl⟩
  | .object members => Node.keep_object_iff.mpr
      ⟨.unbounded, _, members, rfl, entries_memberNodes members, keep_memberNodes members, rfl⟩

/-- The same for the items of an array, one by one. -/
theorem keep_itemNodes : (items : List Value) →
    List.Forall₂ (fun node v => node.keep .unbounded = .ok v) (items.map Value.node) items
  | [] => .nil
  | item :: items => .cons item.keep_node (keep_itemNodes items)

/-- The same for the members of an object, one by one. -/
theorem keep_memberNodes : (members : List (String × Value)) →
    List.Forall₂ (Wire.Keeps .unbounded) (members.map fun m => (m.1, m.2.node)) members
  | [] => .nil
  | (_, value) :: members => .cons ⟨rfl, value.keep_node⟩ (keep_memberNodes members)
end

/-! ### Trees of orderly texts -/

/-- Members without the embedding key embed no text. -/
theorem Members.eq_none_of_embeddedText {members : Members}
    (lacks : embeddingKey ∉ members.keys) {embedded : Option String}
    (h : members.embeddedText = .ok embedded) : embedded = none := by
  cases members with
  | member key pause value after rest =>
    simp only [Members.embeddedText, Except.bind_eq_ok_iff] at h
    obtain ⟨name, hname, h⟩ := h
    have hne : name ≠ embeddingKey := by
      rintro rfl
      exact lacks (by simp [Members.keys, hname, Except.toOption])
    rw [if_neg hne] at h
    cases h
    rfl
  | _ =>
    cases h
    rfl

section Resolve

variable {openText : String → Except Cause Value}

mutual
/-- **Trees of orderly texts.** An orderly node is resolved to the value that it is kept as,
put in key order. -/
theorem Node.keep_of_resolve {depth : Depth} :
    (node : Node) → node.IsOrderly → {tree : Value} →
    node.resolve openText depth = .ok tree → ∃ v, node.keep depth = .ok v ∧ v.sorted = tree
  | .null _, _, _, h | .bool _ _, _, _, h => by
    cases h
    exact ⟨_, rfl, rfl⟩
  | .number _ value _, _, tree, h => by
    obtain ⟨n, rfl, rfl⟩ := Except.map_eq_ok_iff.mp h
    exact ⟨.number n, rfl, rfl⟩
  | .text spelling, _, tree, h => by
    obtain ⟨s, hs, rfl⟩ := Except.map_eq_ok_iff.mp h
    exact ⟨.text s, Except.map_eq_ok_iff.mpr ⟨s, hs, rfl⟩, rfl⟩
  | .array start items, orderly, tree, h => by
    simp only [Node.resolve, Except.bind_eq_ok_iff, Except.pure_eq_ok_iff] at h
    obtain ⟨inner, henter, trees, htrees, rfl⟩ := h
    obtain ⟨values, hvalues, rfl⟩ := items.keep_of_resolve orderly htrees
    refine ⟨.array values, ?_, rfl⟩
    simp only [Node.keep, henter, hvalues, Except.ok_bind]
    rfl
  | .object start members, ⟨_, lacks, orderly⟩, tree, h => by
    simp only [Node.resolve, Except.bind_eq_ok_iff] at h
    obtain ⟨inner, henter, embedded, hembedded, h⟩ := h
    obtain rfl := Members.eq_none_of_embeddedText lacks hembedded
    simp only [Except.bind_eq_ok_iff, Except.pure_eq_ok_iff] at h
    obtain ⟨trees, htrees, rfl⟩ := h
    obtain ⟨kept, hkept, rfl⟩ := members.keep_of_resolve orderly htrees
    refine ⟨.object kept, ?_, rfl⟩
    simp only [Node.keep, henter, hkept, Except.ok_bind]
    rfl
  | .broken _ _, _, _, h | .brokenText _, _, _, h | .missing _, _, _, h => by cases h

/-- The same for items. -/
theorem Items.keep_of_resolve {depth : Depth} :
    (items : Items) → items.AreOrderly → {trees : List Value} →
    items.resolve openText depth = .ok trees → ∃ values, items.keep depth = .ok values ∧
    sortedItems values = trees
  | .item _ node rest, orderly, trees, h => by
    simp only [Items.resolve, Except.bind_eq_ok_iff, Except.pure_eq_ok_iff] at h
    obtain ⟨tree, htree, later, hlater, rfl⟩ := h
    obtain ⟨v, hv, rfl⟩ := node.keep_of_resolve orderly.1 htree
    obtain ⟨values, hvalues, rfl⟩ := rest.keep_of_resolve orderly.2 hlater
    refine ⟨v :: values, ?_, rfl⟩
    simp only [Items.keep, hv, hvalues, Except.ok_bind]
    rfl
  | .close _, _, _, h => by
    cases h
    exact ⟨[], rfl, rfl⟩
  | .trailing _, _, _, h | .stray _, _, _, h | .ended _, _, _, h => by cases h

/-- The same for members, added to those collected so far. -/
theorem Members.keep_of_resolve {depth : Depth} : (members : Members) → members.AreOrderly →
    {collected trees : List (String × Value)} →
    members.resolve openText depth collected = .ok trees →
    ∃ kept, members.keep depth = .ok kept ∧ sortedMembers kept collected = trees
  | .member key _ node _ rest, orderly, collected, trees, h => by
    simp only [Members.resolve, Except.bind_eq_ok_iff] at h
    obtain ⟨name, hname, tree, htree, hlater⟩ := h
    obtain ⟨v, hv, rfl⟩ := node.keep_of_resolve orderly.1 htree
    obtain ⟨kept, hkept, rfl⟩ := rest.keep_of_resolve orderly.2 hlater
    refine ⟨(name, v) :: kept, ?_, rfl⟩
    simp only [Members.keep, hname, hv, hkept, Except.ok_bind]
    rfl
  | .close _, _, collected, _, h => by
    cases h
    exact ⟨[], rfl, rfl⟩
  | .halted key _ _, _, _, _, h => by simp [Members.resolve, Members.finish] at h
  | .badKey _, _, _, _, h | .noKey _, _, _, _, h | .trailing _, _, _, _, h
  | .unfinished _, _, _, _, h
  | .stray _, _, _, _, h | .ended _, _, _, _, h => by cases h
end

end Resolve

/-- The tree of an orderly text is what the text spells, put in key order, and
nothing follows it. -/
theorem Value.exists_kept_of_ofBytes {text : List UInt8} {tree : Value}
    (h : Value.ofBytes text = .ok tree) (orderly : (Document.ofBytes text).root.IsOrderly) :
    ∃ v, (Document.ofBytes text).root.keep .ofText = .ok v ∧ v.sorted = tree ∧
      (Document.ofBytes text).surplus = none := by
  rw [Value.ofBytes, Except.mapError_eq_ok_iff, Document.use, Except.bind_eq_ok_iff] at h
  obtain ⟨resolved, hresolve, h⟩ := h
  obtain ⟨v, hv, rfl⟩ := Node.keep_of_resolve _ orderly hresolve
  cases hsurplus : (Document.ofBytes text).surplus with
  | some seen => simp [hsurplus] at h
  | none =>
    simp only [hsurplus, Except.pure_eq_ok_iff] at h
    exact ⟨v, hv, h, rfl⟩

end ApiSurface.Json
