import ApiSurface.Proofs.Json.Resolved
import ApiSurface.Proofs.Reading.Likeness
import ApiSurface.Proofs.Reading.Passing

/-!
# Reading a text by way of its value tree

A shape reads a text as it stands, or the value tree of the text. The tree has its members
in key order, it has no places, and it is read without a bound on nesting, while the text is
read under one; what the shape passes over in the text has been kept in the tree. If no
object of the text repeats a key or has the embedding key, nothing of this is seen by a
faithful shape: the root of the text and the tree are kept as values that are the same in
key order, and nodes with such values are read alike.

## Main definitions

* `Node.Resembles`: nodes that are kept as values that are the same in key order.

## Main results

* `likeness_resembles`: resemblance leaves no difference that a shape sees.
* `Shape.ofValue_iff_ofBytes`: a faithful shape reads a text exactly as it reads the value
  tree of the text.
-/

namespace ApiSurface

open Json Wire

namespace Json

/-! ### Values -/

/-- Whether two values are orderly, and the same in key order. -/
structure Value.Resembles (v v' : Value) : Prop where
  sorted_eq : v.sorted = v'.sorted
  orderly : v.Everywhere Value.IsOrderly
  orderly' : v'.Everywhere Value.IsOrderly

namespace Value.Resembles

variable {v v' : Value}

theorem symm (h : v.Resembles v') : v'.Resembles v := ⟨h.sorted_eq.symm, h.orderly', h.orderly⟩

theorem null (h : Value.null.Resembles v') : v' = .null := by
  have heq := h.sorted_eq
  cases v' <;> cases heq
  rfl

theorem bool {b : Bool} (h : (Value.bool b).Resembles v') : v' = .bool b := by
  have heq := h.sorted_eq
  cases v' <;> cases heq
  rfl

theorem number {n : Number} (h : (Value.number n).Resembles v') : v' = .number n := by
  have heq := h.sorted_eq
  cases v' <;> cases heq
  rfl

theorem text {s : String} (h : (Value.text s).Resembles v') : v' = .text s := by
  have heq := h.sorted_eq
  cases v' <;> cases heq
  rfl

/-- The items of arrays that resemble each other do so one by one. -/
theorem array {items : List Value} (h : (Value.array items).Resembles v') :
    ∃ items', v' = .array items' ∧ List.Forall₂ Value.Resembles items items' := by
  obtain ⟨heq, horderly, horderly'⟩ := h
  cases v' with
  | array items' =>
    rw [Value.sorted, Value.sorted, Value.array.injEq, sortedItems_eq_map,
      sortedItems_eq_map] at heq
    have hitems :
        List.Forall₂ (fun item item' : Value => item.sorted = item'.sorted) items items' := by
      rw [← List.forall₂_eq_eq_eq, List.forall₂_map_left_iff,
        List.forall₂_map_right_iff] at heq
      exact heq
    have heach := (Value.everywhere_array_iff.mp horderly).2
    have heach' := (Value.everywhere_array_iff.mp horderly').2
    exact ⟨items', rfl, (Except.forall₂_mem hitems).imp fun item item' h =>
      ⟨h.2.2, heach item h.1, heach' item' h.2.1⟩⟩
  | _ => cases heq

/-- The members of objects that resemble each other do so under their keys, in some order. -/
theorem object {members : List (String × Value)} (h : (Value.object members).Resembles v') :
    ∃ ordered members', v' = .object members' ∧ ordered.Perm members' ∧
      List.Forall₂ (fun m m' => m.1 = m'.1 ∧ m.2.Resembles m'.2) members ordered := by
  obtain ⟨heq, horderly, horderly'⟩ := h
  cases v' with
  | object members' =>
    obtain ⟨⟨hdistinct, -⟩, heach⟩ := Value.everywhere_object_iff.mp horderly
    obtain ⟨⟨hdistinct', -⟩, heach'⟩ := Value.everywhere_object_iff.mp horderly'
    rw [Value.sorted, Value.sorted, Value.object.injEq] at heq
    -- Keys are distinct on both sides, so key order only moves the members.
    have hperm :=
      (sortedMembers_perm hdistinct).symm.trans (heq ▸ sortedMembers_perm hdistinct')
    have hmembers : List.Forall₂ (fun sorted m' => sorted = (m'.1, m'.2.sorted))
        (members'.map fun m => (m.1, m.2.sorted)) members' :=
      List.forall₂_map_left_iff.mpr (List.forall₂_same.mpr fun _ _ => rfl)
    obtain ⟨ordered, hordered, hperm'⟩ := List.perm_comp_forall₂ hperm hmembers
    rw [List.forall₂_map_left_iff] at hordered
    refine ⟨ordered, members', rfl, hperm', (Except.forall₂_mem hordered).imp ?_⟩
    rintro m m' ⟨hm, hm', h⟩
    obtain ⟨hkey, hvalue⟩ := Prod.ext_iff.mp h
    exact ⟨hkey, hvalue, heach m hm, heach' m' (hperm'.mem_iff.mp hm')⟩
  | _ => cases heq

end Value.Resembles

/-! ### Nodes -/

/-- Whether two nodes are kept, each under its bound on nesting, as values that
resemble each other. -/
def Node.Resembles (depth depth' : Depth) (node node' : Node) : Prop :=
  ∃ v v', node.keep depth = .ok v ∧ node'.keep depth' = .ok v' ∧ v.Resembles v'

theorem Node.Resembles.symm {depth depth' : Depth} {node node' : Node}
    (h : node.Resembles depth depth' node') : node'.Resembles depth' depth node := by
  obtain ⟨v, v', hv, hv', resembles⟩ := h
  exact ⟨v', v, hv', hv, resembles.symm⟩

end Json

namespace Wire

/-- Nodes that resemble each other are both `null`, or neither is. -/
theorem null_of_resembles {depth depth' : Depth} {node node' : Node}
    (related : node.Resembles depth depth' node') (h : ∃ start, node = .null start) :
    ∃ start, node' = .null start := by
  obtain ⟨start, rfl⟩ := h
  obtain ⟨v, v', ⟨⟩, hv', resembles⟩ := related
  cases resembles.null
  exact Node.hasForm_of_keep hv'

/-- **Resemblance** leaves no difference that a shape sees. -/
theorem likeness_resembles : Likeness Node.Resembles where
  isNull_iff related := ⟨null_of_resembles related, null_of_resembles related.symm⟩
  bool := by
    rintro depth depth' b start node' ⟨v, v', ⟨⟩, hv', resembles⟩
    cases resembles.bool
    exact Node.hasForm_of_keep hv'
  number := by
    rintro depth depth' start n stop node' ⟨v, v', ⟨⟩, hv', resembles⟩
    cases resembles.number
    exact Node.hasForm_of_keep hv'
  text := by
    rintro depth depth' spelling node' s ⟨v, v', hv, hv', resembles⟩ hs
    obtain ⟨_, hs', rfl⟩ := Except.map_eq_ok_iff.mp hv
    cases hs.symm.trans hs'
    cases resembles.text
    exact Node.hasForm_of_keep hv'
  array := by
    rintro depth depth' start items node' inner ⟨v, v', hv, hv', resembles⟩ henter
    obtain ⟨_, nodes, values, hsame, hnodes, hvalues, rfl⟩ := Node.keep_array_iff.mp hv
    cases henter.symm.trans hsame
    obtain ⟨values', rfl, hall⟩ := resembles.array
    obtain ⟨start', items', inner', nodes', rfl, henter', hnodes', hvalues'⟩ :=
      Node.hasForm_of_keep hv'
    refine ⟨start', items', inner', nodes, nodes', rfl, henter', hnodes, hnodes', ?_⟩
    exact forall₂_of_given hvalues hvalues' hall
  object := by
    rintro depth depth' start members node' inner entries
      ⟨v, v', hv, hv', resembles⟩ henter hentries
    obtain ⟨_, _, kept, hsame, hsome, hkept, rfl⟩ := Node.keep_object_iff.mp hv
    cases henter.symm.trans hsame
    cases hentries.symm.trans hsome
    obtain ⟨ordered, kept', rfl, hperm, hall⟩ := resembles.object
    obtain ⟨start', members', inner', entries', rfl, henter', hentries', hkept'⟩ :=
      Node.hasForm_of_keep hv'
    obtain ⟨mid, hmid, hperm'⟩ := exists_perm_of_given hkept hkept' hall hperm
    have hrelated :
        List.Forall₂ (fun e e' => e.1 = e'.1 ∧ Node.Resembles inner inner' e.2 e'.2)
          entries mid :=
      hmid.imp fun e e' ⟨m, m', he, he', hm⟩ =>
        ⟨he.1.trans (hm.1.trans he'.1.symm), m.2, m'.2, he.2, he'.2, hm.2⟩
    have hkeys : kept.map Prod.fst = entries.map Prod.fst :=
      Except.map_eq_of_forall₂ (fun _ _ h => h.1.symm) hkept
    obtain ⟨⟨hdistinct, -⟩, -⟩ := Value.everywhere_object_iff.mp resembles.orderly
    exact ⟨start', members', inner', entries', rfl, henter', hentries',
      ⟨mid, hrelated, hperm'⟩, List.pairwise_map.mp (hkeys ▸ List.pairwise_map.mpr hdistinct)⟩
  skip := by
    rintro depth depth' node node' ⟨v, v', -, hv', -⟩
    exact Node.skip_of_keep hv'
  keep := by
    rintro depth depth' node node' v ⟨_, v', hsame, hv', resembles⟩ hv
    cases hv.symm.trans hsame
    refine
      ⟨v', v.sorted, hv', v.settle_of_lacks (Value.lacks_of_isOrderly resembles.orderly), ?_⟩
    rw [v'.settle_of_lacks (Value.lacks_of_isOrderly resembles.orderly'), resembles.sorted_eq]

/-- **Value trees.** If no object of a text repeats a key or has the embedding key, a
faithful shape reads the text exactly as it reads the value tree of the text. -/
theorem Shape.ofValue_iff_ofBytes {α : Type} (shape : Shape α) (faithful : shape.IsFaithful)
    {text : List UInt8} {tree : Value} (h : Value.ofBytes text = .ok tree)
    (orderly : (Document.ofBytes text).root.IsOrderly) {a : α} :
    shape.ofValue tree = .ok a ↔ shape.ofBytes text = .ok a := by
  obtain ⟨v, hv, rfl, hsurplus⟩ := Value.exists_kept_of_ofBytes h orderly
  have hv_orderly := Node.isOrderly_of_keep orderly hv
  have resembles : (Document.ofBytes text).root.Resembles .ofText .unbounded v.sorted.node :=
    ⟨v, v.sorted, hv, v.sorted.keep_node, v.sorted_sorted.symm, hv_orderly,
      v.isOrderly_sorted hv_orderly⟩
  rw [Shape.ofValue, Except.mapError_eq_ok_iff, ofBytes_eq_ok_iff, and_iff_left hsurplus]
  constructor
  · exact shape.respects likeness_resembles faithful .unbounded .ofText _ _ a resembles.symm
  · exact shape.respects likeness_resembles faithful .ofText .unbounded _ _ a resembles

end Wire

end ApiSurface
