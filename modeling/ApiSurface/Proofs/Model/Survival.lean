import ApiSurface.Proofs.Json.Literal
import ApiSurface.Proofs.Model.Mixins
import ApiSurface.Proofs.Model.WireTypes

/-!
# Payloads survive

A symbol and a relationship keep the members that are none of their fields as payloads, of
which nothing is known. If the text is literal, a payload that is read and written again is
the same value as the last member of the text with its key; each such member is kept, none
is kept that is a field, and what is written has no key twice.

## Main definitions

* `PayloadsSurvive`: what payloads, and what is written of them, have to do with the
  members of an object.
* `PayloadsCarried`: the same for two texts, the one that was read and the one that is written.

## Main results

* `Fields.left_eq_filter`: the members left over by some fields are those under other keys.
* `Shape.carries_payloads`: payloads of any open record.
* `payloads_carried`: payloads of symbols and relationships.
-/

namespace ApiSurface

open Json Wire

/-! ### Members of no field -/

/-- The members left over by some fields are those under other keys, in their order. -/
theorem Wire.Fields.left_eq_filter {depth : Depth} :
    {β : Type} → (fields : Fields β) → {entries left : List (String × Node)} → {values : β} →
      fields.Reads depth entries values left →
      left = entries.filter fun entry => entry.1 ∉ fields.keys
  | _, .done, entries, left, _, h => by
    rw [show left = entries from h]
    exact (List.filter_eq_self.mpr fun entry _ => by simp [Fields.keys]).symm
  | _, .required key _ rest, entries, left, _, h | _, .defaulted key _ _ rest, entries,
      left, _, h
  | _, .optional key _ rest, entries, left, _, h | _, .mark key rest, entries, left, _, h => by
    rw [rest.left_eq_filter h.2, besides, List.filter_filter]
    refine List.filter_congr fun entry _ => ?_
    simp [Fields.keys, Bool.and_comm]

section Keeps

variable {depth : Depth} {left : List (String × Node)} {kept : List (String × Value)}

/-- Members are kept under their keys. -/
theorem keys_of_keeps (h : List.Forall₂ (Keeps depth) left kept) :
    kept.map Prod.fst = left.map Prod.fst := by
  induction h with
  | nil => rfl
  | cons hmember _ ih => rw [List.map_cons, List.map_cons, ih, hmember.1]

/-- The last value that is kept under a key is that of the last member. -/
theorem exists_lastUnder_of_keeps (h : List.Forall₂ (Keeps depth) left kept) {key : String}
    {v : Value} (hv : lastUnder key kept = some v) :
    ∃ node, lastUnder key left = some node ∧ node.keep depth = .ok v := by
  induction h with
  | nil => cases hv
  | @cons entry member left kept hmember hrest ih =>
    obtain ⟨hkey, hkeep⟩ := hmember
    rw [lastUnder, Option.or_eq_some_iff] at hv
    rcases hv with hlater | ⟨hnone, hhere⟩
    · obtain ⟨node, hnode, hkeep⟩ := ih hlater
      exact ⟨node, by rw [lastUnder, hnode]; rfl, hkeep⟩
    · have hleft : lastUnder key left = none := by
        rw [Option.eq_none_iff_forall_ne_some]
        intro node hnode
        have hmem := exists_lastUnder_iff.mp ⟨node, hnode⟩
        rw [← keys_of_keeps hrest] at hmem
        obtain ⟨w, hw⟩ := exists_lastUnder_iff.mpr hmem
        rw [hnone] at hw
        cases hw
      split at hhere
      case isTrue hname =>
        cases hhere
        refine ⟨entry.2, ?_, hkeep⟩
        rw [lastUnder, hleft, if_pos (hkey.trans hname)]
        rfl
      case isFalse => cases hhere

/-- What an open record keeps of literal members is each of them sorted, and the last one
with each key. -/
theorem settleExtras_of_literal
    (literal : ∀ member ∈ kept, member.2.Everywhere Value.IsLiteral) :
    settleExtras kept =
      .ok (.ofList (kept.map fun member => (member.1, member.2.sorted))) := by
  refine settleExtras_eq_ok_iff.mpr ⟨_, ?_, rfl⟩
  rw [List.forall₂_map_right_iff, List.forall₂_same]
  intro member hmember
  refine ⟨rfl, member.2.settle_of_lacks fun part hpart => ?_⟩
  exact (literal member hmember part hpart).2

end Keeps

/-! ### Fields without numbers that are rounded -/

/-- Whether a shape is that of a record with payloads whose fields are plain. -/
def Wire.Shape.HasPlainFields {α : Type} : Shape α → Prop
  | .openRecord _ fields _ _ _ _ => fields.ArePlain
  | _ => False

mutual
/-- No floating-point number is written by a plain shape. -/
theorem Wire.Shape.isExact_encode : {α : Type} → (shape : Shape α) → shape.IsPlain → (a : α) →
    (shape.encode a).Everywhere Value.IsExact
  | _, .text, _, _ => Value.everywhere_text_iff.mpr trivial
  | _, .flag, _, _ => Value.everywhere_bool_iff.mpr trivial
  | _, .choice _ _ _, _, _ => Value.everywhere_text_iff.mpr trivial
  | _, .word32, _, _ | _, .word64, _, _ => Value.everywhere_number_iff.mpr trivial
  | _, .list item, plain, _ =>
    Value.everywhere_array_iff.mpr
      ⟨trivial, List.forall_mem_map.mpr fun a _ => item.isExact_encode plain a⟩
  | _, .record _ fields _ parts _, plain, a =>
    Value.everywhere_object_iff.mpr ⟨trivial, fields.isExact_members plain.1 (parts a)⟩
  | _, .raw, plain, _ | _, .table _, plain, _ | _, .openRecord _ _ _ _ _ _, plain, _ =>
    plain.elim

/-- The same for the members that some fields write. -/
theorem Wire.Fields.isExact_members :
    {β : Type} → (fields : Fields β) → fields.ArePlain → (values : β) →
    ∀ member ∈ fields.members values, member.2.Everywhere Value.IsExact
  | _, .done, _, _ => nofun
  | _, .required _ shape rest, plain, _ | _, .defaulted _ shape _ rest, plain, _ =>
    List.forall_mem_cons.mpr ⟨shape.isExact_encode plain.1 _, rest.isExact_members plain.2 _⟩
  | _, .optional _ _ rest, plain, (none, _) => rest.isExact_members plain.2 _
  | _, .optional _ shape rest, plain, (some a, _) =>
    List.forall_mem_cons.mpr ⟨shape.isExact_encode plain.1 a, rest.isExact_members plain.2 _⟩
  | _, .mark _ rest, plain, (false, _) => rest.isExact_members plain _
  | _, .mark _ rest, plain, (true, _) =>
    List.forall_mem_cons.mpr ⟨Value.everywhere_bool_iff.mpr trivial,
      rest.isExact_members plain _⟩
end

/-! ### Open records -/

/-- What the payloads of a record, and the members that are written for it, have to do with
the members of the object it was read from, where some keys are those of fields. -/
structure PayloadsSurvive (fields : List String) (entries : List (String × Node))
    (payloads : Table String Value) (written : List (String × Value)) : Prop where
  /-- There are payloads under exactly the keys of the object that are those of no field. -/
  keys : ∀ key, key ∈ payloads.keys ↔ key ∈ entries.map Prod.fst ∧ key ∉ fields
  /-- What is written are some fields, in their order, and then the payloads. -/
  order : ∃ own, own.Sublist fields ∧ written.map Prod.fst = own ++ payloads.keys
  /-- No key is written twice. -/
  once : (written.map Prod.fst).Nodup
  /-- Each payload is written, and is the same value as the last member with its key. -/
  same : ∀ key value, payloads.get? key = some value → (key, value) ∈ written ∧
    ∃ node v, lastUnder key entries = some node ∧ node.keep .unbounded = .ok v ∧ v.Same value

/-- Whether the payloads of a record are carried over from a text to the one that is
written: both are objects, nothing follows the second one, and the payloads survive. -/
def PayloadsCarried (fields : List String) (text : List UInt8) (payloads : Table String Value)
    (written : String) : Prop :=
  ∃ start members entries rewritten,
    (Document.ofBytes text).root = .object start members ∧ members.entries? = some entries ∧
    (Document.ofBytes (Text.bytes written)).root.keep .unbounded = .ok (.object rewritten) ∧
    (Document.ofBytes (Text.bytes written)).surplus = none ∧
    PayloadsSurvive fields entries payloads rewritten

section OpenRecord

variable {α β : Type} {name : String} {fields : Fields β} {make : β → Table String Value → α}
  {parts : α → β} {extras : α → Table String Value} {made : ∀ a, make (parts a) (extras a) = a}

/-- Payloads of an open record that is read from literal members survive. -/
theorem Wire.Fields.payloads_survive {depth : Depth} {entries left : List (String × Node)}
    {values : β} {kept : List (String × Value)} (nodup : fields.keys.Nodup)
    (admits : depth.Admits 0) (hreads : fields.Reads depth entries values left)
    (hkeeps : List.Forall₂ (Keeps depth) left kept) :
    PayloadsSurvive fields.keys entries
      (.ofList (kept.map fun member => (member.1, member.2.sorted)))
      (fields.members values ++
        (Table.ofList (kept.map fun member => (member.1, member.2.sorted))).entries) := by
  set payloads :=
    Table.ofList (kept.map fun member => (member.1, member.2.sorted)) with hpayloads
  have hleft := fields.left_eq_filter hreads
  have hget (key : String) : payloads.get? key = (lastUnder key kept).map Value.sorted := by
    rw [hpayloads, Table.get?_ofList, lastUnder_map]
  have hkeys (key : String) :
      key ∈ payloads.keys ↔ key ∈ entries.map Prod.fst ∧ key ∉ fields.keys := by
    rw [Table.mem_keys_iff]
    simp only [hget, Option.map_eq_some_iff]
    rw [exists_comm]
    simp only [exists_and_left, exists_eq', and_true, exists_lastUnder_iff]
    rw [keys_of_keeps hkeeps, hleft]
    simp only [List.mem_map, List.mem_filter, decide_eq_true_eq]
    constructor
    · rintro ⟨entry, ⟨hentry, hnot⟩, rfl⟩
      exact ⟨⟨entry, hentry, rfl⟩, hnot⟩
    · rintro ⟨⟨entry, hentry, rfl⟩, hnot⟩
      exact ⟨entry, ⟨hentry, hnot⟩, rfl⟩
  have horder := fields.members_keys_sublist values
  constructor
  case keys => exact hkeys
  case order => exact ⟨_, horder, List.map_append⟩
  case once =>
    rw [List.map_append]
    refine (nodup.sublist horder).append payloads.nodup_keys ?_
    intro key hfield hpayload
    exact ((hkeys key).mp hpayload).2 (horder.mem hfield)
  case same =>
    intro key value hvalue
    have hmem := Table.mem_entries_iff.mpr hvalue
    have hnot := ((hkeys key).mp (Table.mem_keys_iff.mpr ⟨value, hvalue⟩)).2
    rw [hget] at hvalue
    obtain ⟨v, hv, rfl⟩ := Option.map_eq_some_iff.mp hvalue
    obtain ⟨node, hnode, hkeep⟩ := exists_lastUnder_of_keeps hkeeps hv
    have hlast : lastUnder key left = lastUnder key entries := by
      rw [hleft]
      exact lastUnder_filter (p := fun name => name ∉ fields.keys) (by simpa using hnot)
    exact ⟨List.mem_append_right _ hmem, node, v, hlast ▸ hnode,
      ((node.keep_iff_unbounded admits).mp hkeep).1, v.same_sorted⟩

/-- Payloads of an open record that is read from a literal text are carried over to
what is written. -/
theorem Wire.Shape.carries_payloads
    (plain : (Shape.openRecord name fields make parts extras made).HasPlainFields)
    (faithful : (Shape.openRecord name fields make parts extras made).IsFaithful)
    {text : List UInt8} {a : α} (literal : (Document.ofBytes text).root.IsLiteral)
    (h : (Shape.openRecord name fields make parts extras made).ofBytes text = .ok a) :
    PayloadsCarried fields.keys text (extras a)
      ((Shape.openRecord name fields make parts extras made).render a) := by
  have hdecode := (ofBytes_eq_ok_iff.mp h).1
  have hsettled :=
    Shape.isSettled_of_decode _ faithful (Document.isOfWords_ofBytes text) hdecode
  obtain ⟨start, members, inner, entries, values, left, kept, table, hroot, henter, hentries,
    hreads, hkeeps, htable, rfl⟩ := Shape.decode_openRecord_iff.mp hdecode
  obtain ⟨hparts, hextras⟩ := faithful.2.2 values table
  rw [hroot] at literal
  have hliteral : ∀ member ∈ kept, member.2.Everywhere Value.IsLiteral := by
    intro member hmember
    obtain ⟨entry, hentry, -, hkeep⟩ := Except.exists_of_forall₂ hkeeps hmember
    have hmem := (fields.left_of_reads hreads entry hentry).1
    exact Node.isLiteral_of_keep (Members.isLiteral_of_entries literal hentries entry hmem).2
      hkeep
  rw [settleExtras_of_literal hliteral] at htable
  cases htable
  have hsurvive :=
    fields.payloads_survive faithful.2.1 (Depth.admits_zero_of_enter henter) hreads hkeeps
  have hexact : (Value.object (fields.members values ++
      (Table.ofList (kept.map fun member => (member.1, member.2.sorted))).entries)).Everywhere
        Value.IsExact := by
    refine Value.everywhere_object_iff.mpr ⟨trivial, List.forall_mem_append.mpr
      ⟨fields.isExact_members plain values, fun entry hentry => ?_⟩⟩
    obtain ⟨member, hmember, rfl⟩ := List.mem_map.mp (Table.mem_of_mem_ofList hentry)
    exact member.2.everywhere_sorted (fun _ => trivial) (fun _ => trivial)
      fun part hpart => (hliteral member hmember part hpart).1
  have hwords := Shape.isOfWords_encode _ faithful hsettled
  rw [Shape.encode, hparts, hextras] at hwords
  obtain ⟨hkeep, hsurplus⟩ := Document.ofBytes_render hexact hwords
  rw [Shape.render, Shape.encode, hparts, hextras]
  exact ⟨start, members, entries, _, hroot, hentries, hkeep, hsurplus, hsurvive⟩

end OpenRecord

/-! ### Symbols and relationships -/

theorem SymbolIdentifier.shape_isPlain : SymbolIdentifier.shape.IsPlain :=
  ⟨⟨trivial, trivial, trivial⟩, by decide⟩

theorem SymbolKind.shape_isPlain : SymbolKind.shape.IsPlain :=
  ⟨⟨trivial, trivial, trivial⟩, by decide⟩

theorem Names.shape_isPlain : Names.shape.IsPlain :=
  ⟨⟨trivial, Fragments.shape_isPlain, Fragments.shape_isPlain, trivial, trivial⟩, by decide⟩

theorem Symbol.shape_hasPlainFields : Symbol.shape.HasPlainFields :=
  ⟨SymbolIdentifier.shape_isPlain, SymbolKind.shape_isPlain, trivial, Names.shape_isPlain,
    trivial, trivial⟩

theorem Relationship.shape_hasPlainFields : Relationship.shape.HasPlainFields :=
  ⟨trivial, trivial, trivial, trivial, trivial⟩

/-- **Payloads survive.** In a literal text that is read as a symbol or a relationship, the
payloads are the members that are none of its fields, and each of them is written again as
the same value as the last member with its key. -/
theorem payloads_carried {text : List UInt8}
    (literal : (Document.ofBytes text).root.IsLiteral) :
    (∀ s, Symbol.shape.ofBytes text = .ok s →
      PayloadsCarried ["identifier", "kind", "pathComponents", "names",
        "accessLevel"] text s.mixins s.render) ∧
      ∀ r, Relationship.shape.ofBytes text = .ok r →
        PayloadsCarried ["kind", "source", "target", "targetFallback"] text r.mixins
          (Relationship.shape.render r) := by
  constructor
  · intro s h
    exact Shape.carries_payloads Symbol.shape_hasPlainFields Symbol.shape_isFaithful literal h
  · intro r h
    exact Shape.carries_payloads Relationship.shape_hasPlainFields
      Relationship.shape_isFaithful literal h

/-- A text with a symbol that has two payloads, one of them twice, with repeated and
unordered keys inside. -/
def repeatingText : List UInt8 :=
  Text.bytes
    ("\x7b\"identifier\":[\"p\",\"s\"],\"x\":1,\"kind\":[\"k\",\"d\"],\"y\":[true,null]," ++
    "\"x\":\x7b\"b\":1,\"a\":-7,\"b\":\"\\u0041\"\x7d\x7d")

/-- The last of several members is kept, at every depth. -/
theorem payloads_carried_repeating :
    ∃ s, Symbol.shape.ofBytes repeatingText = .ok s ∧
      s.mixins.entries.map (fun entry => (entry.1, entry.2.render)) =
        [("x", "\x7b\"a\":-7,\"b\":\"A\"\x7d"), ("y", "[true,null]")] ∧
      PayloadsCarried ["identifier", "kind", "pathComponents", "names",
        "accessLevel"] repeatingText s.mixins s.render := by
  have hread : ∃ s, Symbol.shape.ofBytes repeatingText = .ok s ∧
      s.mixins.entries.map (fun entry => (entry.1, entry.2.render)) =
        [("x", "\x7b\"a\":-7,\"b\":\"A\"\x7d"), ("y", "[true,null]")] := by decide +kernel
  obtain ⟨s, h, hpayloads⟩ := hread
  exact ⟨s, h, hpayloads, (payloads_carried (by decide +kernel)).1 s h⟩

end ApiSurface
