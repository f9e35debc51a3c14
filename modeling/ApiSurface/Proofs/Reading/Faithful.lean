import ApiSurface.Proofs.Json.Settled
import ApiSurface.Proofs.Reading.RoundTrip

/-!
# What reading yields

A shape is faithful if it leaves nothing as it stands, has no field twice, takes its values
apart into the parts they were made of, and assumes values that it could have read. Such a
shape yields values of which all that is kept is settled, and kept under keys of no field. A
value of this kind is written with integers of at most 64 bits.

## Main results

* `Shape.IsFaithful`: shapes whose values are told by what is written for them.
* `Shape.IsSettled`: values of which all that is kept is settled.
* `Shape.isSettled_of_decode`: what a faithful shape reads is settled.
* `Shape.isOfWords_encode`: settled values are written with integers of at most 64 bits.
-/

namespace ApiSurface.Wire

open Json

/-! ### Settled values of a shape -/

mutual
/-- Whether all that is kept in a value is settled, and kept under keys of no field. -/
def Shape.IsSettled {α : Type} : Shape α → α → Prop
  | .text, _ | .word32, _ | .word64, _ | .flag, _ | .raw, _ | .choice _ _ _, _ => True
  | .list item, as => ∀ a ∈ as, item.IsSettled a
  | .table item, t => ∀ entry ∈ t.entries, item.IsSettled entry.2
  | .record _ fields _ parts _, a => fields.AreSettled (parts a)
  | .openRecord _ fields _ parts extras _, a =>
    fields.AreSettled (parts a) ∧
      ∀ entry ∈ (extras a).entries, entry.1 ∉ fields.keys ∧ entry.2.IsSettled

/-- Whether all that is kept in the values of some fields is settled. -/
def Fields.AreSettled {β : Type} : Fields β → β → Prop
  | .done, _ => True
  | .required _ shape rest, values => shape.IsSettled values.1 ∧ rest.AreSettled values.2
  | .defaulted _ shape _ rest, values => shape.IsSettled values.1 ∧ rest.AreSettled values.2
  | .optional _ shape rest, values =>
    (∀ a, values.1 = some a → shape.IsSettled a) ∧ rest.AreSettled values.2
  | .mark _ rest, values => rest.AreSettled values.2
end

mutual
/-- Whether what a shape writes for a value tells the value. -/
def Shape.IsFaithful {α : Type} : Shape α → Prop
  | .text | .word32 | .word64 | .flag | .choice _ _ _ => True
  | .raw => False
  | .list item => item.IsFaithful
  | .table item => item.IsFaithful
  | .record _ fields make parts _ =>
    fields.AreFaithful ∧ fields.keys.Nodup ∧ ∀ values, parts (make values) = values
  | .openRecord _ fields make parts extras _ =>
    fields.AreFaithful ∧ fields.keys.Nodup ∧
      ∀ values table, parts (make values table) = values ∧ extras (make values table) = table

/-- Whether what some fields write for their values tells the values. -/
def Fields.AreFaithful {β : Type} : Fields β → Prop
  | .done => True
  | .required _ shape rest => shape.IsFaithful ∧ rest.AreFaithful
  | .defaulted _ shape default rest =>
    shape.IsFaithful ∧ shape.IsSettled default ∧ rest.AreFaithful
  | .optional _ shape rest => shape.IsFaithful ∧ rest.AreFaithful
  | .mark _ rest => rest.AreFaithful
end

/-! ### Nodes of a text -/

section Entries

variable {entries : List (String × Node)} (words : ∀ entry ∈ entries, entry.2.IsOfWords)
  (key : String)
include words

theorem isOfWords_of_under : ∀ node ∈ under key entries, node.IsOfWords := by
  intro node hnode
  obtain ⟨entry, hentry, rfl⟩ := List.mem_map.mp hnode
  exact words entry (List.mem_of_mem_filter hentry)

theorem isOfWords_of_besides : ∀ entry ∈ besides key entries, entry.2.IsOfWords :=
  fun entry hentry =>
  words entry (List.mem_of_mem_filter hentry)

end Entries

/-- The members left over are among all members, under keys of no field. -/
theorem Fields.left_of_reads {depth : Depth} :
    {β : Type} → (fields : Fields β) → {entries left : List (String × Node)} → {values : β} →
      fields.Reads depth entries values left → ∀ entry ∈ left, entry ∈ entries ∧
      entry.1 ∉ fields.keys
  | _, .done, entries, left, _, h, entry, hentry => by
    cases h
    exact ⟨hentry, nofun⟩
  | _, .required key _ rest, entries, left, _, h, entry, hentry
  | _, .defaulted key _ _ rest, entries, left, _, h, entry, hentry
  | _, .optional key _ rest, entries, left, _, h, entry, hentry
  | _, .mark key rest, entries, left, _, h, entry, hentry => by
    obtain ⟨hbesides, hkeys⟩ := rest.left_of_reads h.2 entry hentry
    obtain ⟨hmem, hne⟩ := List.mem_filter.mp hbesides
    refine ⟨hmem, ?_⟩
    simp only [Fields.keys, List.mem_cons, not_or]
    exact ⟨by simpa using hne, hkeys⟩

/-! ### Reading -/

section Read

variable {α : Type} {read : Node → Except Fault α} {P : α → Prop} {nodes : List Node}
  (reads : ∀ {node a}, node.IsOfWords → read node = .ok a → P a)
  (words : ∀ node ∈ nodes, node.IsOfWords)
include reads words

theorem holds_of_only {a : α} (h : ∃ node, nodes = [node] ∧ read node = .ok a) : P a := by
  obtain ⟨node, rfl, ha⟩ := h
  exact reads (words node List.mem_cons_self) ha

theorem holds_of_gives {default a : α} (hdefault : P default)
    (h : Gives read default nodes a) : P a := by
  obtain ⟨-, rfl⟩ | h := h
  · exact hdefault
  · exact holds_of_only reads words h

end Read

/-- What a value that may be `null` gives. -/
theorem holds_of_decodeNullable {α : Type} {read : Node → Except Fault α} {P : α → Prop}
    (reads : ∀ {node a}, node.IsOfWords → read node = .ok a → P a) {node : Node} {a : Option α}
    (words : node.IsOfWords) (h : decodeNullable read node = .ok a) :
    ∀ b, a = some b → P b := by
  cases node with
  | null _ =>
    cases h
    nofun
  | _ =>
    simp only [decodeNullable, Except.map_eq_ok_iff] at h
    obtain ⟨b, hb, rfl⟩ := h
    rintro _ ⟨⟩
    exact reads words hb

/-- What an open record keeps are its extras, each settled. -/
theorem settleExtras_eq_ok_iff {kept : List (String × Value)} {table : Table String Value} :
    settleExtras kept = .ok table ↔
      ∃ settled, List.Forall₂ (fun m m' => m.1 = m'.1 ∧ m.2.settle = .ok m'.2) kept settled ∧
        .ofList settled = table := by
  have each (m m' : String × Value) :
      (do return (m.1, ← m.2.settle) : Except Cause _) = .ok m' ↔
      m.1 = m'.1 ∧ m.2.settle = .ok m'.2 := by
    simp only [Except.bind_eq_ok_iff, Except.pure_eq_ok_iff]
    constructor
    · rintro ⟨v, hv, rfl⟩
      exact ⟨rfl, hv⟩
    · rintro ⟨hkey, hv⟩
      exact ⟨m'.2, hv, Prod.ext hkey rfl⟩
  simp only [settleExtras, Except.bind_eq_ok_iff, Except.pure_eq_ok_iff,
    Except.mapM_eq_ok_iff, each]

/-- What an open record keeps is settled, and stands under the keys of members left over. -/
theorem isSettled_of_settleExtras {depth : Depth} {left : List (String × Node)}
    {kept : List (String × Value)} {table : Table String Value}
    (words : ∀ entry ∈ left, entry.2.IsOfWords) (hkeeps : List.Forall₂ (Keeps depth) left kept)
    (h : settleExtras kept = .ok table) :
    ∀ entry ∈ table.entries, (∃ member ∈ left, member.1 = entry.1) ∧ entry.2.IsSettled := by
  obtain ⟨settled, hsettled, rfl⟩ := settleExtras_eq_ok_iff.mp h
  intro entry hentry
  obtain ⟨member, hmember, hkey, hsettle⟩ :=
    Except.exists_of_forall₂ hsettled (Table.mem_of_mem_ofList hentry)
  obtain ⟨source, hsource, hname, hkeep⟩ := Except.exists_of_forall₂ hkeeps hmember
  have hwords := Node.isOfWords_of_keep (words source hsource) hkeep
  exact ⟨⟨source, hsource, hname.trans hkey⟩,
    Value.isSettled_of_settle member.2 hwords hsettle⟩

mutual
/-- **Readings are settled.** What a faithful shape reads of a text is settled. -/
theorem Shape.isSettled_of_decode {depth : Depth} :
    {α : Type} → (shape : Shape α) → shape.IsFaithful → {node : Node} → {a : α} →
      node.IsOfWords → shape.decode depth node = .ok a → shape.IsSettled a
  | _, .text, _, _, _, _, _ | _, .word32, _, _, _, _, _ | _, .word64, _, _, _, _, _
  | _, .flag, _, _, _, _, _ | _, .choice _ _ _, _, _, _, _, _ => trivial
  | _, .raw, faithful, _, _, _, _ => faithful.elim
  | _, .list item, faithful, node, as, words, h => by
    obtain ⟨start, items, inner, nodes, rfl, -, hnodes, has⟩ := Shape.decode_list_iff.mp h
    intro a ha
    obtain ⟨node, hnode, hdecode⟩ := Except.exists_of_forall₂ has ha
    exact item.isSettled_of_decode faithful
      (Items.isOfWords_of_nodes words hnodes node hnode) hdecode
  | _, .table item, faithful, node, t, words, h => by
    obtain ⟨start, members, inner, entries, pairs, rfl, -, hentries, hpairs, rfl⟩ :=
      Shape.decode_table_iff.mp h
    intro pair hpair
    obtain ⟨entry, hentry, -, hdecode⟩ :=
      Except.exists_of_forall₂ hpairs (Table.mem_of_mem_ofList hpair)
    have hnode := Members.isOfWords_of_entries words hentries entry hentry
    exact item.isSettled_of_decode faithful hnode hdecode
  | _, .record name fields make parts made, faithful, node, a, words, h => by
    obtain ⟨hfields, -, hparts⟩ := faithful
    obtain ⟨start, inner, values, -, rfl, ⟨members, entries, left, rfl, hentries, hreads, -⟩ |
      ⟨items, nodes, rfl, hnodes, hreads⟩⟩ := Shape.decode_record_iff.mp h
    all_goals rw [Shape.IsSettled, hparts]
    · exact fields.areSettled_of_reads hfields
        (Members.isOfWords_of_entries words hentries) hreads
    · exact fields.areSettled_of_readsInOrder hfields
        (Items.isOfWords_of_nodes words hnodes) hreads
  | _, .openRecord name fields make parts extras made, faithful, node, a, words, h => by
    obtain ⟨hfields, -, hparts⟩ := faithful
    obtain ⟨start, members, inner, entries, values, left, kept, table, rfl, -, hentries,
      hreads, hkeeps, htable, rfl⟩ := Shape.decode_openRecord_iff.mp h
    have hwords := Members.isOfWords_of_entries words hentries
    have hleft := fields.left_of_reads hreads
    obtain ⟨hvalues, hextras⟩ := hparts values table
    rw [Shape.IsSettled, hvalues, hextras]
    refine ⟨fields.areSettled_of_reads hfields hwords hreads, fun entry hentry => ?_⟩
    obtain ⟨⟨member, hmember, hkey⟩, hsettled⟩ :=
      isSettled_of_settleExtras (fun entry hentry => hwords entry (hleft entry hentry).1)
        hkeeps htable entry hentry
    exact ⟨hkey ▸ (hleft member hmember).2, hsettled⟩

/-- The same for the fields of an object. -/
theorem Fields.areSettled_of_reads {depth : Depth} :
    {β : Type} → (fields : Fields β) → fields.AreFaithful →
      {entries left : List (String × Node)} →
      {values : β} → (∀ entry ∈ entries, entry.2.IsOfWords) →
      fields.Reads depth entries values left → fields.AreSettled values
  | _, .done, _, _, _, _, _, _ => trivial
  | _, .required key shape rest, faithful, entries, left, values, words, h =>
    ⟨holds_of_only (shape.isSettled_of_decode faithful.1) (isOfWords_of_under words key) h.1,
      rest.areSettled_of_reads faithful.2 (isOfWords_of_besides words key) h.2⟩
  | _, .defaulted key shape default rest, faithful, entries, left, values, words, h =>
    ⟨holds_of_gives (shape.isSettled_of_decode faithful.1) (isOfWords_of_under words key)
        faithful.2.1 h.1,
      rest.areSettled_of_reads faithful.2.2 (isOfWords_of_besides words key) h.2⟩
  | _, .optional key shape rest, faithful, entries, left, values, words, h =>
    ⟨holds_of_gives (holds_of_decodeNullable (shape.isSettled_of_decode faithful.1))
        (isOfWords_of_under words key) (by rintro _ ⟨⟩) h.1,
      rest.areSettled_of_reads faithful.2 (isOfWords_of_besides words key) h.2⟩
  | _, .mark key rest, faithful, entries, left, values, words, h =>
    rest.areSettled_of_reads faithful (isOfWords_of_besides words key) h.2

/-- The same for the fields of a record that is written as an array. -/
theorem Fields.areSettled_of_readsInOrder {depth : Depth} :
    {β : Type} → (fields : Fields β) → fields.AreFaithful → {nodes : List Node} →
      {values : β} →
      (∀ node ∈ nodes, node.IsOfWords) → fields.ReadsInOrder depth nodes values →
      fields.AreSettled values
  | _, .done, _, _, _, _, _ => trivial
  | _, .required key shape rest, faithful, nodes, values, words, h =>
    ⟨holds_of_only (shape.isSettled_of_decode faithful.1)
        (fun _ h => words _ (List.mem_of_mem_take h)) h.1,
      rest.areSettled_of_readsInOrder faithful.2
        (fun _ h => words _ (List.mem_of_mem_drop h)) h.2⟩
  | _, .defaulted key shape default rest, faithful, nodes, values, words, h =>
    ⟨holds_of_gives (shape.isSettled_of_decode faithful.1)
        (fun _ h => words _ (List.mem_of_mem_take h)) faithful.2.1 h.1,
      rest.areSettled_of_readsInOrder faithful.2.2
        (fun _ h => words _ (List.mem_of_mem_drop h)) h.2⟩
  | _, .optional key shape rest, faithful, nodes, values, words, h =>
    ⟨holds_of_gives (holds_of_decodeNullable (shape.isSettled_of_decode faithful.1))
        (fun _ h => words _ (List.mem_of_mem_take h)) (by rintro _ ⟨⟩) h.1,
      rest.areSettled_of_readsInOrder faithful.2 (fun _ h =>
        words _ (List.mem_of_mem_drop h)) h.2⟩
  | _, .mark key rest, faithful, nodes, values, words, h =>
    rest.areSettled_of_readsInOrder faithful (fun _ h => words _ (List.mem_of_mem_drop h)) h.2
end

/-! ### Writing -/

mutual
/-- Settled values are written with integers of at most 64 bits. -/
theorem Shape.isOfWords_encode : {α : Type} → (shape : Shape α) → shape.IsFaithful → {a : α} →
    shape.IsSettled a → (shape.encode a).Everywhere Value.IsOfWords
  | _, .text, _, s, _ => Value.everywhere_text_iff.mpr trivial
  | _, .flag, _, b, _ => Value.everywhere_bool_iff.mpr trivial
  | _, .choice _ name _, _, a, _ => Value.everywhere_text_iff.mpr trivial
  | _, .word32, _, w, _ => by
    have hlt := w.toNat_lt
    refine Value.everywhere_number_iff.mpr ⟨by omega, ?_⟩
    rw [Decimal.maxWord]
    omega
  | _, .word64, _, w, _ => by
    have hlt := w.toNat_lt
    refine Value.everywhere_number_iff.mpr ⟨by omega, ?_⟩
    rw [Decimal.maxWord]
    omega
  | _, .raw, faithful, _, _ => faithful.elim
  | _, .list item, faithful, as, settled => by
    refine Value.everywhere_array_iff.mpr ⟨trivial, List.forall_mem_map.mpr fun a ha => ?_⟩
    exact item.isOfWords_encode faithful (settled a ha)
  | _, .table item, faithful, t, settled => by
    refine Value.everywhere_object_iff.mpr
      ⟨trivial, List.forall_mem_map.mpr fun entry hentry => ?_⟩
    exact item.isOfWords_encode faithful (settled entry hentry)
  | _, .record _ fields _ parts _, faithful, a, settled =>
    Value.everywhere_object_iff.mpr ⟨trivial, fields.isOfWords_members faithful.1 settled⟩
  | _, .openRecord _ fields _ parts extras _, faithful, a, settled =>
    Value.everywhere_object_iff.mpr ⟨trivial, List.forall_mem_append.mpr
      ⟨fields.isOfWords_members faithful.1 settled.1,
        fun entry hentry => (settled.2 entry hentry).2.words⟩⟩

/-- The same for the members that some fields write. -/
theorem Fields.isOfWords_members :
    {β : Type} → (fields : Fields β) → fields.AreFaithful → {values : β} →
    fields.AreSettled values → ∀ member ∈ fields.members values,
    member.2.Everywhere Value.IsOfWords
  | _, .done, _, _, _ => nofun
  | _, .required _ shape rest, faithful, _, settled =>
    List.forall_mem_cons.mpr ⟨shape.isOfWords_encode faithful.1 settled.1,
      rest.isOfWords_members faithful.2 settled.2⟩
  | _, .defaulted _ shape _ rest, faithful, _, settled =>
    List.forall_mem_cons.mpr ⟨shape.isOfWords_encode faithful.1 settled.1,
      rest.isOfWords_members faithful.2.2 settled.2⟩
  | _, .optional _ _ rest, faithful, (none, _), settled =>
    rest.isOfWords_members faithful.2 settled.2
  | _, .optional _ shape rest, faithful, (some a, _), settled =>
    List.forall_mem_cons.mpr ⟨shape.isOfWords_encode faithful.1 (settled.1 a rfl),
      rest.isOfWords_members faithful.2 settled.2⟩
  | _, .mark _ rest, faithful, (false, _), settled => rest.isOfWords_members faithful settled
  | _, .mark _ rest, faithful, (true, _), settled =>
    List.forall_mem_cons.mpr ⟨Value.everywhere_bool_iff.mpr trivial,
      rest.isOfWords_members faithful settled⟩
end

end ApiSurface.Wire
