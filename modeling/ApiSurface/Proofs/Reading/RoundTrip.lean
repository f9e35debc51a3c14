import ApiSurface.Proofs.Reading.Shapes
import ApiSurface.Proofs.Tables
import ApiSurface.Wire.Encode

/-!
# Reading what was written

A shape is plain if nothing in it is kept as it stands. What is written by a plain shape is
read back as it was, also after the members of its objects have been brought into key order:
the fields of a record are looked up by their keys, which are distinct, so the order of the
members does not matter.

## Main results

* `Shape.IsPlain`: shapes that keep nothing as it stands.
* `Fields.reads_of_perm`: the fields of a record, read from their members in any order.
* `Shape.ofValue_toValue`: what a plain shape writes it reads back.
-/

namespace ApiSurface

open Json Wire

/-! ### Plain shapes -/

/-- The keys of some fields. -/
def Wire.Fields.keys {β : Type} : Fields β → List String
  | .done => []
  | .required key _ rest => key :: rest.keys
  | .defaulted key _ _ rest => key :: rest.keys
  | .optional key _ rest => key :: rest.keys
  | .mark key rest => key :: rest.keys

mutual
/-- Whether a shape keeps nothing as it stands, and has no field twice. -/
def Wire.Shape.IsPlain {α : Type} : Shape α → Prop
  | .text | .word32 | .word64 | .flag | .choice _ _ _ => True
  | .list item => item.IsPlain
  | .record _ fields _ _ _ => fields.ArePlain ∧ fields.keys.Nodup
  | .raw | .table _ | .openRecord _ _ _ _ _ _ => False

/-- Whether the shapes of some fields are plain. -/
def Wire.Fields.ArePlain {β : Type} : Fields β → Prop
  | .done => True
  | .required _ shape rest => shape.IsPlain ∧ rest.ArePlain
  | .defaulted _ shape _ rest => shape.IsPlain ∧ rest.ArePlain
  | .optional _ shape rest => shape.IsPlain ∧ rest.ArePlain
  | .mark _ rest => rest.ArePlain
end

/-! ### Values as trees -/

/-- The items of a sorted array. -/
theorem Json.sortedItems_eq_map (items : List Value) :
    sortedItems items = items.map Value.sorted := by
  induction items with
  | nil => rfl
  | cons item items ih => rw [sortedItems, ih, List.map_cons]

/-- The members of a sorted object are collected in a table. -/
theorem Json.sortedMembers_eq_entries (members : List (String × Value))
    (t : Table String Value) :
    sortedMembers members t.entries =
      ((members.map fun m => (m.1, m.2.sorted)).foldl
        (fun t m => t.insert m.1 m.2) t).entries := by
  induction members generalizing t with
  | nil => rfl
  | cons member members ih => exact ih (t.insert member.1 member.2.sorted)

/-- If keys are distinct, sorting the members of an object only changes their order. -/
theorem Json.sortedMembers_perm {members : List (String × Value)}
    (distinct : members.Pairwise fun m m' => m.1 ≠ m'.1) :
    (sortedMembers members []).Perm (members.map fun m => (m.1, m.2.sorted)) := by
  rw [show ([] : List (String × Value)) = (Table.empty : Table String Value).entries from rfl,
    sortedMembers_eq_entries]
  exact Table.ofList_entries_perm (List.pairwise_map.mpr distinct)

namespace Wire

/-! ### Members in any order -/

theorem under_perm {entries entries' : List (String × Node)} (perm : entries.Perm entries')
    (key : String) : (under key entries).Perm (under key entries') :=
  (perm.filter _).map _

theorem besides_perm {entries entries' : List (String × Node)} (perm : entries.Perm entries')
    (key : String) : (besides key entries).Perm (besides key entries') :=
  perm.filter _

/-- Nothing stands under a key that no member has. -/
theorem under_of_not_mem {key : String} {entries : List (String × Node)}
    (h : ∀ entry ∈ entries, entry.1 ≠ key) : under key entries = [] := by
  rw [under, List.filter_eq_nil_iff.mpr (by simpa using h), List.map_nil]

/-- All members stand besides a key that none has. -/
theorem besides_of_not_mem {key : String} {entries : List (String × Node)}
    (h : ∀ entry ∈ entries, entry.1 ≠ key) : besides key entries = entries :=
  List.filter_eq_self.mpr (by simpa using h)

/-- The members that fields are written as, with their members sorted and as trees. -/
def Fields.written {β : Type} (fields : Fields β) (values : β) : List (String × Node) :=
  (fields.members values).map fun m => (m.1, m.2.sorted.node)

/-- Fields are written under their keys, in their order. -/
theorem Fields.members_keys_sublist :
    {β : Type} → (fields : Fields β) → (values : β) →
      ((fields.members values).map Prod.fst).Sublist fields.keys
  | _, .done, _ => .slnil
  | _, .required _ _ rest, values | _, .defaulted _ _ _ rest, values =>
    (rest.members_keys_sublist values.2).cons_cons _
  | _, .optional _ _ rest, values => by
    rw [Fields.members, Fields.keys, List.map_append]
    cases values.1 with
    | none => exact (rest.members_keys_sublist values.2).cons _
    | some a => exact (rest.members_keys_sublist values.2).cons_cons _
  | _, .mark _ rest, values => by
    rw [Fields.members, Fields.keys, List.map_append]
    cases values.1 with
    | false => exact (rest.members_keys_sublist values.2).cons _
    | true => exact (rest.members_keys_sublist values.2).cons_cons _

/-- No field is written under a key that is not among the keys. -/
theorem Fields.ne_of_mem_members {β : Type} {fields : Fields β} {values : β} {key : String}
    (h : key ∉ fields.keys) : ∀ member ∈ fields.members values, member.1 ≠ key := by
  rintro member hmember rfl
  exact h ((fields.members_keys_sublist values).mem (List.mem_map_of_mem hmember))

theorem Fields.ne_of_mem_written {β : Type} {fields : Fields β} {values : β} {key : String}
    (h : key ∉ fields.keys) : ∀ entry ∈ fields.written values, entry.1 ≠ key :=
  List.forall_mem_map.mpr (Fields.ne_of_mem_members h)

section Head

variable {β : Type} {rest : Fields β} {values : β} {key : String} {node : Node}
  {entries : List (String × Node)}

/-- What stands under the key of a first field that is written. -/
theorem under_of_written (h : key ∉ rest.keys)
    (perm : entries.Perm ((key, node) :: rest.written values)) :
    under key entries = [node] ∧ (besides key entries).Perm (rest.written values) := by
  have hunder := under_perm perm key
  have hbesides := besides_perm perm key
  rw [under_cons_self, under_of_not_mem (Fields.ne_of_mem_written h)] at hunder
  rw [besides_cons_self, besides_of_not_mem (Fields.ne_of_mem_written h)] at hbesides
  exact ⟨List.perm_singleton.mp hunder, hbesides⟩

/-- What stands under the key of a first field that is left out. -/
theorem under_of_omitted (h : key ∉ rest.keys) (perm : entries.Perm (rest.written values)) :
    under key entries = [] ∧ (besides key entries).Perm (rest.written values) := by
  have hunder := under_perm perm key
  have hbesides := besides_perm perm key
  rw [under_of_not_mem (Fields.ne_of_mem_written h)] at hunder
  rw [besides_of_not_mem (Fields.ne_of_mem_written h)] at hbesides
  exact ⟨List.perm_nil.mp hunder, hbesides⟩

end Head

/-! ### Reading back -/

/-- Nothing is written as `null` by a plain shape. -/
theorem Shape.encode_ne_null {α : Type} (shape : Shape α) (plain : shape.IsPlain) (a : α)
    (start : Nat) : (shape.encode a).sorted.node ≠ .null start := by
  cases shape with
  | raw | table _ | openRecord _ _ _ _ _ _ => exact plain.elim
  | _ => simp [Shape.encode, Value.sorted, Value.node]

/-- A value that may be `null` is read as it is if it is not `null`. -/
theorem decodeNullable_of_ne_null {α : Type} {read : Node → Except Fault α} {node : Node}
    {a : α} (h : ∀ start, node ≠ .null start) (hread : read node = .ok a) :
    decodeNullable read node = .ok (some a) := by
  cases node with
  | null start => exact absurd rfl (h start)
  | _ => rw [decodeNullable, hread, Except.map]; simp

/-- A number below a bound is read back. -/
theorem decodeNatural_of_lt {bound n start stop : Nat} (due : String) (h : n < bound) :
    decodeNatural bound due (.number start (.ok (.integer n)) stop) = .ok n := by
  simp only [decodeNatural, Except.ok_bind]
  rw [if_pos]
  · rfl
  · simpa using h

mutual
/-- What a plain shape writes it reads back, with the members of objects in key order. -/
theorem Shape.decode_encode :
    {α : Type} → (shape : Shape α) → shape.IsPlain → (a : α) →
      shape.decode .unbounded (shape.encode a).sorted.node = .ok a
  | _, .text, _, s => rfl
  | _, .flag, _, b => rfl
  | _, .word32, _, w => by
    show (decodeNatural UInt32.size "u32"
      (.number 0 (.ok (.integer w.toNat)) 0)).map Nat.toUInt32 = .ok w
    rw [decodeNatural_of_lt _ w.toNat_lt_size, Except.map]
    exact congrArg Except.ok w.ofNat_toNat
  | _, .word64, _, w => by
    show (decodeNatural UInt64.size "usize"
      (.number 0 (.ok (.integer w.toNat)) 0)).map Nat.toUInt64 = .ok w
    rw [decodeNatural_of_lt _ w.toNat_lt_size, Except.map]
    exact congrArg Except.ok w.ofNat_toNat
  | _, .choice cases name named, _, a => by
    show decodeName cases (.ofText (name a)) = .ok a
    exact decodeName_iff.mpr ⟨name a, rfl, named a⟩
  | _, .list item, plain, as => by
    rw [Shape.encode, Value.sorted, Value.node, sortedItems_eq_map, Shape.decode_list_iff]
    refine ⟨0, _, .unbounded, _, rfl, rfl, nodes_itemNodes _, ?_⟩
    rw [List.map_map, List.map_map, List.forall₂_map_left_iff, List.forall₂_same]
    exact fun a _ => item.decode_encode plain a
  | _, .record name fields make parts made, plain, a => by
    rw [Shape.encode, Value.sorted, Value.node, Shape.decode_record_iff]
    refine ⟨0, .unbounded, parts a, rfl, made a,
      .inl ⟨_, _, [], rfl, entries_memberNodes _, ?_, by simp⟩⟩
    have hdistinct : (fields.members (parts a)).Pairwise fun m m' => m.1 ≠ m'.1 :=
      List.pairwise_map.mp (plain.2.sublist (fields.members_keys_sublist (parts a)))
    have hperm := (sortedMembers_perm hdistinct).map fun m => (m.1, m.2.node)
    rw [List.map_map] at hperm
    exact fields.reads_of_perm plain.1 plain.2 hperm
  | _, .raw, plain, _ | _, .table _, plain, _ | _, .openRecord _ _ _ _ _ _, plain, _ =>
    plain.elim

/-- The fields of a record are read back from the members they are written as, in any order. -/
theorem Fields.reads_of_perm :
    {β : Type} → (fields : Fields β) → fields.ArePlain → fields.keys.Nodup → {values : β} →
      {entries : List (String × Node)} → entries.Perm (fields.written values) →
      fields.Reads .unbounded entries values []
  | _, .done, _, _, _, _, perm => (List.perm_nil.mp perm).symm
  | _, .required key shape rest, plain, nodup, values, entries, perm => by
    obtain ⟨hkey, hrest⟩ := List.nodup_cons.mp nodup
    obtain ⟨hunder, hbesides⟩ := under_of_written hkey perm
    exact ⟨⟨_, hunder, shape.decode_encode plain.1 _⟩,
      rest.reads_of_perm plain.2 hrest hbesides⟩
  | _, .defaulted key shape default rest, plain, nodup, values, entries, perm => by
    obtain ⟨hkey, hrest⟩ := List.nodup_cons.mp nodup
    obtain ⟨hunder, hbesides⟩ := under_of_written hkey perm
    exact ⟨.inr ⟨_, hunder, shape.decode_encode plain.1 _⟩,
      rest.reads_of_perm plain.2 hrest hbesides⟩
  | _, .optional key shape rest, plain, nodup, ⟨none, values⟩, entries, perm => by
    obtain ⟨hkey, hrest⟩ := List.nodup_cons.mp nodup
    obtain ⟨hunder, hbesides⟩ := under_of_omitted hkey perm
    exact ⟨.inl ⟨hunder, rfl⟩, rest.reads_of_perm plain.2 hrest hbesides⟩
  | _, .optional key shape rest, plain, nodup, ⟨some a, values⟩, entries, perm => by
    obtain ⟨hkey, hrest⟩ := List.nodup_cons.mp nodup
    obtain ⟨hunder, hbesides⟩ := under_of_written hkey perm
    have hread :=
      decodeNullable_of_ne_null (shape.encode_ne_null plain.1 a)
        (shape.decode_encode plain.1 a)
    exact ⟨.inr ⟨_, hunder, hread⟩, rest.reads_of_perm plain.2 hrest hbesides⟩
  | _, .mark key rest, plain, nodup, ⟨false, values⟩, entries, perm => by
    obtain ⟨hkey, hrest⟩ := List.nodup_cons.mp nodup
    obtain ⟨hunder, hbesides⟩ := under_of_omitted hkey perm
    exact ⟨.inl ⟨hunder, rfl⟩, rest.reads_of_perm plain hrest hbesides⟩
  | _, .mark key rest, plain, nodup, ⟨true, values⟩, entries, perm => by
    obtain ⟨hkey, hrest⟩ := List.nodup_cons.mp nodup
    obtain ⟨hunder, hbesides⟩ := under_of_written hkey perm
    exact ⟨.inr ⟨_, hunder, rfl⟩, rest.reads_of_perm plain hrest hbesides⟩
end

/-- **Round trip.** What a plain shape writes it reads back. -/
theorem Shape.ofValue_toValue {α : Type} (shape : Shape α) (plain : shape.IsPlain) (a : α) :
    shape.ofValue (shape.toValue a) = .ok a := by
  rw [Shape.ofValue, Shape.toValue, shape.decode_encode plain, Except.mapError]

end Wire

end ApiSurface
