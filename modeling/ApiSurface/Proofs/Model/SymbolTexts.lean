import ApiSurface.Proofs.Json.Unambiguous
import ApiSurface.Proofs.Model.Survival

/-!
# Symbols are told by their texts

A symbol that has been read keeps no payload under the key of a field. So its text tells its
fields apart from its payloads, and two such symbols with the same text are the same symbol:
their fields are read back from what is written, and their payloads are values that are told
by their texts.

## Main definitions

* `Symbol.IsDecoded`: symbols that have been read from JSON.

## Main results

* `Shape.encode_openRecord_injective`: values of an open record without payloads under
  keys of fields.
* `Symbol.render_injective`: different symbols are written differently.
-/

namespace ApiSurface

open Json Wire

namespace Wire

/-! ### Open records -/

/-- Plain fields are told by the members that are written for them. -/
theorem Fields.members_injective {β : Type} {fields : Fields β} (plain : fields.ArePlain)
    (nodup : fields.keys.Nodup) {values values' : β}
    (h : fields.members values = fields.members values') : values = values' := by
  have hread := (Shape.record "" fields id id fun _ => rfl).decode_encode ⟨plain, nodup⟩
  have hvalues := hread values
  rw [show (Shape.record "" fields id id fun _ => rfl).encode values =
    .object (fields.members values) from rfl, h] at hvalues
  exact Except.ok.inj (hvalues.symm.trans (hread values'))

section OpenRecord

variable {α β : Type} {name : String} {fields : Fields β} {make : β → Table String Value → α}
  {parts : α → β} {extras : α → Table String Value} {made : ∀ a, make (parts a) (extras a) = a}

/-- Members of fields and members under other keys are told apart. -/
theorem Fields.append_members_cancel {values values' : β}
    {others others' : List (String × Value)} (ho : ∀ member ∈ others, member.1 ∉ fields.keys)
    (ho' : ∀ member ∈ others', member.1 ∉ fields.keys)
    (h : fields.members values ++ others = fields.members values' ++ others') :
    fields.members values = fields.members values' ∧ others = others' := by
  have hown (values : β) :
      ∀ member ∈ fields.members values, decide (member.1 ∈ fields.keys) = true :=
    fun member hmember =>
      decide_eq_true ((fields.members_keys_sublist values).mem (List.mem_map_of_mem hmember))
  have hsplit (values : β) {others : List (String × Value)} (ho : ∀ member ∈ others, member.1 ∉
      fields.keys) :
      (fields.members values ++ others).filter (fun member =>
        decide (member.1 ∈ fields.keys)) = fields.members values := by
    rw [List.filter_append, List.filter_eq_self.mpr (hown values),
      List.filter_eq_nil_iff.mpr fun member hmember => by
      simpa using ho member hmember, List.append_nil]
  have hmembers : fields.members values = fields.members values' := by
    rw [← hsplit values ho, h, hsplit values' ho']
  rw [hmembers] at h
  exact ⟨hmembers, List.append_cancel_left h⟩

/-- **Open records.** Values of an open record that keep nothing under the keys of its
fields are told by what is written for them. -/
theorem Shape.encode_openRecord_injective
    (plain : (Shape.openRecord name fields make parts extras made).HasPlainFields)
    (nodup : fields.keys.Nodup) {a b : α} (ha : ∀ key ∈ (extras a).keys, key ∉ fields.keys)
    (hb : ∀ key ∈ (extras b).keys, key ∉ fields.keys)
    (h : (Shape.openRecord name fields make parts extras made).encode a =
      (Shape.openRecord name fields make parts extras made).encode b) : a = b := by
  rw [Shape.encode, Shape.encode, Value.object.injEq] at h
  obtain ⟨hmembers, hentries⟩ := Fields.append_members_cancel
    (fun entry hentry => ha entry.1 (List.mem_map_of_mem hentry))
    (fun entry hentry => hb entry.1 (List.mem_map_of_mem hentry)) h
  rw [← made a, ← made b, Fields.members_injective plain nodup hmembers, Table.ext hentries]

/-- What is read by an open record is kept under keys of no field. -/
theorem Shape.extras_of_decode
    (faithful : (Shape.openRecord name fields make parts extras made).IsFaithful)
    {depth : Depth} {node : Node} {a : α}
    (h : (Shape.openRecord name fields make parts extras made).decode depth node = .ok a) :
    ∀ key ∈ (extras a).keys, key ∉ fields.keys := by
  obtain ⟨start, members, inner, entries, values, left, kept, table, -, -, -, hreads, hkeeps,
      htable, rfl⟩ :=
    Shape.decode_openRecord_iff.mp h
  obtain ⟨-, hextras⟩ := faithful.2.2 values table
  rw [hextras]
  obtain ⟨settled, hsettled, rfl⟩ := settleExtras_eq_ok_iff.mp htable
  refine List.forall_mem_map.mpr fun entry hentry => ?_
  obtain ⟨member, hmember, hkey, -⟩ :=
    Except.exists_of_forall₂ hsettled (Table.mem_of_mem_ofList hentry)
  obtain ⟨source, hsource, hname, -⟩ := Except.exists_of_forall₂ hkeeps hmember
  rw [← hkey, ← hname]
  exact (fields.left_of_reads hreads source hsource).2

end OpenRecord

end Wire

/-! ### Symbols -/

/-- Whether a symbol has been read from JSON. -/
def Symbol.IsDecoded (s : Symbol) : Prop :=
  ∃ depth node, Symbol.shape.decode depth node = .ok s

/-- **Symbols.** Different symbols that have been read are written differently. -/
theorem Symbol.render_injective {s t : Symbol} (hs : s.IsDecoded) (ht : t.IsDecoded)
    (h : s.render = t.render) : s = t := by
  obtain ⟨depth, node, hs⟩ := hs
  obtain ⟨depth', node', ht⟩ := ht
  have hencode : Symbol.shape.encode s = Symbol.shape.encode t := Value.render_injective h
  have hextras := Shape.extras_of_decode Symbol.shape_isFaithful hs
  have hextras' := Shape.extras_of_decode Symbol.shape_isFaithful ht
  exact Shape.encode_openRecord_injective Symbol.shape_hasPlainFields
    Symbol.shape_isFaithful.2.1 hextras hextras' hencode

end ApiSurface
