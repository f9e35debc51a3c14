import ApiSurface.Proofs.Json.Settled
import ApiSurface.Proofs.Reading.RoundTrip

/-!
# Values up to the order of members

An object is a finite map: of several members with one key the last one counts, and the
order of the members says nothing. Two values are the same if they agree up to that, at
every depth. Sorting the members of a value gives the same value, and a value that embeds no
text is settled by sorting it.

## Main definitions

* `Value.Same`: values that agree as finite maps.

## Main results

* `Value.same_sorted`: sorting a value gives the same value.
* `Value.Same.sorted_eq`: values that are the same are sorted alike.
* `Value.settle_of_lacks`: without the embedding key, settling is sorting.
* `Value.everywhere_sorted`: what holds of all numbers of a value holds of the sorted one.
-/

namespace ApiSurface.Json

/-! ### The same value -/

/-- Whether two values are the same: arrays item by item, objects as finite maps, in which
the last of several members with one key counts, and everything else to the letter. -/
inductive Value.Same : Value → Value → Prop
  | null : Same .null .null
  | bool (b : Bool) : Same (.bool b) (.bool b)
  | number (n : Number) : Same (.number n) (.number n)
  | text (s : String) : Same (.text s) (.text s)
  | array {items items' : List Value} :
      List.Forall₂ Same items items' → Same (.array items) (.array items')
  | object {members members' : List (String × Value)} :
      (∀ key, Option.Rel Same (lastUnder key members) (lastUnder key members')) →
      Same (.object members) (.object members')

/-- The last value under a key in a sorted object is the last one before, sorted. -/
theorem lastUnder_sortedMembers (key : String) (members : List (String × Value)) :
    lastUnder key (sortedMembers members []) = (lastUnder key members).map Value.sorted := by
  have hentries := sortedMembers_eq_entries members .empty
  have htable := Table.get?_ofList (members.map fun m => (m.1, m.2.sorted)) key
  rw [lastUnder_map] at htable
  rw [show sortedMembers members [] = _ from hentries, ← htable]
  exact (Table.get?_ofList _ key).symm.trans
    (congrArg (Table.get? · key) (Table.ofList_entries _))

mutual
/-- **Sorting.** A sorted value is the same value. -/
theorem Value.same_sorted : (v : Value) → v.Same v.sorted
  | .null => .null
  | .bool b => .bool b
  | .number n => .number n
  | .text s => .text s
  | .array items => .array (same_sortedItems items)
  | .object members => by
    refine .object fun key => ?_
    rw [lastUnder_sortedMembers]
    cases h : lastUnder key members with
    | none => exact .none
    | some value =>
      exact .some (same_sorted_of_member members (key, value) (mem_of_lastUnder h))

/-- The same for the items of an array. -/
theorem same_sortedItems :
    (items : List Value) → List.Forall₂ Value.Same items (sortedItems items)
  | [] => .nil
  | item :: items => .cons item.same_sorted (same_sortedItems items)

/-- The same for the members of an object, one by one. -/
theorem same_sorted_of_member : (members : List (String × Value)) → ∀ member ∈ members,
    member.2.Same member.2.sorted
  | [] => nofun
  | (_, value) :: members =>
    List.forall_mem_cons.mpr ⟨value.same_sorted, same_sorted_of_member members⟩
end

/-- Sorted objects are equal if they have equal last values under all keys. -/
theorem sortedMembers_eq_of_lastUnder {members members' : List (String × Value)}
    (h : ∀ key, (lastUnder key members).map Value.sorted =
      (lastUnder key members').map Value.sorted) :
    sortedMembers members [] = sortedMembers members' [] := by
  have hentries := sortedMembers_eq_entries members .empty
  have hentries' := sortedMembers_eq_entries members' .empty
  rw [show sortedMembers members [] = _ from hentries, show sortedMembers members' [] =
    _ from hentries']
  refine congrArg Table.entries (Table.ext_get? fun key => ?_)
  rw [Table.get?_foldl_insert, Table.get?_foldl_insert, lastUnder_map, lastUnder_map, h]

mutual
/-- Values that are the same are sorted alike. -/
theorem Value.Same.sorted_eq : (v : Value) → {w : Value} → v.Same w → v.sorted = w.sorted
  | .null, _, .null => rfl
  | .bool _, _, .bool _ => rfl
  | .number _, _, .number _ => rfl
  | .text _, _, .text _ => rfl
  | .array items, _, .array h => congrArg Value.array (sortedItems_eq_of_same items h)
  | .object members, _, @Value.Same.object _ members' h => by
    refine congrArg Value.object (sortedMembers_eq_of_lastUnder fun key => ?_)
    have hkey := h key
    generalize lastUnder key members' = last' at hkey ⊢
    cases hlast : lastUnder key members with
    | none =>
      rw [hlast] at hkey
      cases hkey
      rfl
    | some value =>
      rw [hlast] at hkey
      cases hkey with
      | some hsame =>
        exact congrArg some (sorted_eq_of_member members (key,
          value) (mem_of_lastUnder hlast) hsame)

/-- The same for the items of an array. -/
theorem sortedItems_eq_of_same : (items : List Value) → {items' : List Value} →
    List.Forall₂ Value.Same items items' → sortedItems items = sortedItems items'
  | [], _, .nil => rfl
  | item :: items, _, .cons hitem hitems =>
    congrArg₂ List.cons (hitem.sorted_eq item) (sortedItems_eq_of_same items hitems)

/-- The same for the members of an object, one by one. -/
theorem sorted_eq_of_member :
    (members : List (String × Value)) → ∀ member ∈ members, ∀ {w : Value}, member.2.Same w →
      member.2.sorted = w.sorted
  | [] => nofun
  | (_, value) :: members => List.forall_mem_cons.mpr
      ⟨fun hsame => hsame.sorted_eq value, sorted_eq_of_member members⟩
end

/-! ### Parts of a sorted value -/

mutual
/-- What holds everywhere in a value, whatever objects it has, holds everywhere in
the sorted one. -/
theorem Value.everywhere_sorted {P : Value → Prop} (objects : ∀ members, P (.object members))
    (arrays : ∀ items, P (.array items)) : (v : Value) → v.Everywhere P → v.sorted.Everywhere P
  | .null, h | .bool _, h | .number _, h | .text _, h => h
  | .array items, h => Value.everywhere_array_iff.mpr
      ⟨arrays _,
        everywhere_sortedItems objects arrays items (Value.everywhere_array_iff.mp h).2⟩
  | .object members, h => Value.everywhere_object_iff.mpr
      ⟨objects _,
        everywhere_sortedMembers objects arrays members
        [] (Value.everywhere_object_iff.mp h).2 nofun⟩

/-- The same for the items of an array. -/
theorem everywhere_sortedItems {P : Value → Prop} (objects : ∀ members, P (.object members))
    (arrays : ∀ items, P (.array items)) :
    (items : List Value) → (∀ item ∈ items, item.Everywhere P) →
      ∀ item ∈ sortedItems items, item.Everywhere P
  | [], _ => nofun
  | item :: items, h => by
    obtain ⟨hitem, hitems⟩ := List.forall_mem_cons.mp h
    exact List.forall_mem_cons.mpr
      ⟨item.everywhere_sorted objects arrays hitem,
        everywhere_sortedItems objects arrays items hitems⟩

/-- The same for the members of an object, added to those collected so far. -/
theorem everywhere_sortedMembers {P : Value → Prop} (objects : ∀ members, P (.object members))
    (arrays : ∀ items, P (.array items)) : (members collected : List (String × Value)) →
      (∀ member ∈ members, member.2.Everywhere P) →
        (∀ member ∈ collected, member.2.Everywhere P) →
      ∀ member ∈ sortedMembers members collected, member.2.Everywhere P
  | [], _, _, hcollected => hcollected
  | (key, value) :: members, collected, h, hcollected => by
    obtain ⟨hvalue, hmembers⟩ := List.forall_mem_cons.mp h
    refine everywhere_sortedMembers objects arrays members _ hmembers fun member hmember => ?_
    obtain rfl | hold := mem_insertEntry hmember
    · exact value.everywhere_sorted objects arrays hvalue
    · exact hcollected member hold
end

/-! ### Settling -/

mutual
/-- A value that embeds no text is settled by sorting it. -/
theorem Value.settle_of_lacks : (v : Value) → v.Everywhere (Value.Lacks embeddingKey) →
    v.settle = .ok v.sorted
  | .null, _ | .bool _, _ | .number _, _ | .text _, _ => rfl
  | .array items, lacks => by
    rw [Value.settle, settleItems_of_lacks items (Value.everywhere_array_iff.mp lacks).2]
    rfl
  | .object members, lacks => by
    obtain ⟨hlacks, hvalues⟩ := Value.everywhere_object_iff.mp lacks
    simp only [Value.settle, embeddedValue_of_lacks hlacks, Except.ok_bind,
      settleMembers_of_lacks members [] hvalues]
    rfl

/-- The same for the items of an array. -/
theorem settleItems_of_lacks : (items : List Value) →
    (∀ item ∈ items, item.Everywhere (Value.Lacks embeddingKey)) →
      settleItems items = .ok (sortedItems items)
  | [], _ => rfl
  | item :: items, lacks => by
    obtain ⟨hitem, hitems⟩ := List.forall_mem_cons.mp lacks
    rw [settleItems, item.settle_of_lacks hitem, settleItems_of_lacks items hitems]
    rfl

/-- The same for the members of an object, added to those collected so far. -/
theorem settleMembers_of_lacks : (members collected : List (String × Value)) →
    (∀ member ∈ members, member.2.Everywhere (Value.Lacks embeddingKey)) →
      settleMembers members collected = .ok (sortedMembers members collected)
  | [], _, _ => rfl
  | (key, value) :: members, collected, lacks => by
    obtain ⟨hvalue, hmembers⟩ := List.forall_mem_cons.mp lacks
    rw [settleMembers, value.settle_of_lacks hvalue, Except.ok_bind,
      settleMembers_of_lacks members _ hmembers]
    rfl
end

end ApiSurface.Json
