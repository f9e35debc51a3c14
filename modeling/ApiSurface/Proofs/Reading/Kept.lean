import ApiSurface.Proofs.Reading.Nesting

/-!
# The nesting of values

A node that is kept as a value has a node for each item of an array, and an entry for each
member of an object. So it nests as deeply as the value does.

## Main results

* `Value.nesting_array`, `Value.nesting_object`: how deeply a value nests.
* `Node.nesting_of_keep`: the nesting of a node is that of its value.
-/

namespace ApiSurface.Json

open Wire

/-- The nesting of items, one by one. -/
theorem Items.nesting_of_nodes {items : Items} {nodes : List Node}
    (h : items.nodes? = some nodes) : items.nesting = deepest Node.nesting nodes := by
  induction h using Items.rec_nodes with
  | close stop => rfl
  | item seen value rest nodes _ ih =>
    rw [Items.nesting, ih]
    rfl

/-- The nesting of members, one by one. -/
theorem Members.nesting_of_entries {members : Members} {entries : List (String × Node)}
    (h : members.entries? = some entries) :
    members.nesting = deepest (fun entry => entry.2.nesting) entries := by
  induction h using Members.rec_entries with
  | close stop => rfl
  | member key pause value after rest name entries _ _ ih =>
    rw [Members.nesting, ih]
    rfl

/-- How deeply arrays and objects nest in a value. -/
def Value.nesting (v : Value) : Nat := v.node.nesting

theorem Value.nesting_array (values : List Value) :
    (Value.array values).nesting = deepest Value.nesting values + 1 := by
  rw [Value.nesting, Value.node, Node.nesting, Items.nesting_of_nodes (nodes_itemNodes values),
    deepest, List.map_map]
  rfl

theorem Value.nesting_object (members : List (String × Value)) :
    (Value.object members).nesting = deepest (fun member => member.2.nesting) members + 1 := by
  rw [Value.nesting, Value.node, Node.nesting,
    Members.nesting_of_entries (entries_memberNodes members), deepest, List.map_map]
  rfl

/-- A node nests as deeply as the value that it is kept as. -/
theorem Node.nesting_of_keep {depth : Depth} {node : Node} {v : Value}
    (h : node.keep depth = .ok v) : node.nesting = v.nesting := by
  refine Node.rec_kept (P := fun node v => node.nesting = v.nesting)
    ?null ?bool ?number ?text ?array ?object h
  case array =>
    intro start items nodes values hnodes hvalues
    rw [Node.nesting, Items.nesting_of_nodes hnodes, Value.nesting_array, deepest, deepest,
      Except.map_eq_of_forall₂ (fun _ _ h => h.symm) hvalues]
  case object =>
    intro start members entries kept hentries hkept
    rw [Node.nesting, Members.nesting_of_entries hentries, Value.nesting_object, deepest,
      deepest, Except.map_eq_of_forall₂ (fun _ _ h => h.2.symm) hkept]
  all_goals
    intros
    rfl

end ApiSurface.Json
