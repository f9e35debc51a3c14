import ApiSurface.Proofs.Reading.Records

/-!
# Readings by shape

For each shape that is composed of others, what a node has to be so that the shape reads it,
and what the value is made of. Walks, slots and places in the text no longer show.

## Main results

* `Shape.decode_list_iff`, `Shape.decode_table_iff`: all items, all members.
* `Shape.decode_record_iff`, `Shape.decode_openRecord_iff`: the fields of a record, and the
  members of no field.
* `decodeChoice_iff`: one of some names.
* `ofBytes_eq_ok_iff`: a text.
-/

namespace ApiSurface.Wire

open Json

variable {α σ : Type}

/-- A node of the wrong kind is not read. -/
theorem mismatch_ne_ok {due : String} {node : Node} {a : α} : mismatch due node ≠ .ok a := by
  simp [mismatch]

/-- A list is read from an array of which every item is read. -/
theorem Shape.decode_list_iff {depth : Depth} {item : Shape α} {node : Node} {as : List α} :
    (Shape.list item).decode depth node = .ok as ↔
      ∃ start items inner nodes, node = .array start items ∧ depth.enter start = .ok inner ∧
        items.nodes? = some nodes ∧
        List.Forall₂ (fun node a => item.decode inner node = .ok a) nodes as := by
  cases node with
  | array start items =>
    simp only [Shape.decode, Except.bind_eq_ok_iff, decodeItems_eq_ok_iff, Node.array.injEq]
    constructor
    · rintro ⟨inner, henter, nodes, hnodes, has⟩
      exact ⟨start, items, inner, nodes, ⟨rfl, rfl⟩, henter, hnodes, has⟩
    · rintro ⟨_, _, inner, nodes, ⟨rfl, rfl⟩, henter, hnodes, has⟩
      exact ⟨inner, henter, nodes, hnodes, has⟩
  | _ => simp [Shape.decode, mismatch_ne_ok]

/-- A record is read from an object whose members give its fields, with the members of no
field passed over, or from an array whose items give its fields in their order. -/
theorem Shape.decode_record_iff {depth : Depth} {β : Type} {name : String} {fields : Fields β}
    {make : β → α} {parts : α → β} {made : ∀ a, make (parts a) = a} {node : Node} {a : α} :
    (Shape.record name fields make parts made).decode depth node = .ok a ↔
      ∃ start inner values, depth.enter start = .ok inner ∧ make values = a ∧
        ((∃ members entries left, node = .object start members ∧
          members.entries? = some entries ∧
            fields.Reads inner entries values left ∧ ∀ entry ∈ left, entry.2.skip = .ok ()) ∨
          ∃ items nodes, node = .array start items ∧ items.nodes? = some nodes ∧
            fields.ReadsInOrder inner nodes values) := by
  cases node with
  | array start items =>
    simp only [Shape.decode, Except.bind_eq_ok_iff, Except.pure_eq_ok_iff, Prod.exists,
      checkSurplus_eq_ok_iff]
    constructor
    · rintro ⟨inner, henter, values, _, hread, _, ⟨stop, rfl⟩, hmake⟩
      obtain ⟨nodes, hnodes, hreads⟩ := (fields.readsInOrder_iff _ 0).mp ⟨stop, hread⟩
      exact ⟨start, inner, values, henter, hmake, .inr ⟨items, nodes, rfl, hnodes, hreads⟩⟩
    · rintro ⟨_, inner, values, henter, hmake, ⟨_, _, _, h, -⟩ | ⟨_, nodes, h, hnodes, hreads⟩⟩
      · cases h
      · cases h
        obtain ⟨stop, hread⟩ := (fields.readsInOrder_iff _ 0).mpr ⟨nodes, hnodes, hreads⟩
        exact ⟨inner, henter, values, .close stop, hread, (), ⟨stop, rfl⟩, hmake⟩
  | object start members =>
    simp only [Shape.decode, Except.bind_eq_ok_iff, Except.pure_eq_ok_iff, Prod.exists,
      decodeMembers_eq_ok_iff]
    constructor
    · rintro ⟨inner, henter, slots, stop, ⟨entries, hentries, hwalk, rfl⟩, values,
        hvalues, hmake⟩
      obtain ⟨left, hfill, hskip⟩ := (walk_passing_iff (fields.attuned inner)).mp hwalk
      exact ⟨start, inner, values, henter, hmake, .inl ⟨members, entries, left, rfl, hentries,
        (fields.reads_iff members.stop).mp ⟨slots, hfill, hvalues⟩, hskip⟩⟩
    · rintro ⟨_, inner, values, henter, hmake,
        ⟨_, entries, left, h, hentries, hreads, hskip⟩ | ⟨_, _, h, -⟩⟩
      · cases h
        obtain ⟨slots, hfill, hvalues⟩ := (fields.reads_iff members.stop).mpr hreads
        have hwalk := (walk_passing_iff (fields.attuned inner)).mpr ⟨left, hfill, hskip⟩
        exact ⟨inner, henter, slots, _, ⟨entries, hentries, hwalk, rfl⟩, values,
          hvalues, hmake⟩
      · cases h
  | _ => simp [Shape.decode, mismatch_ne_ok]

/-- A record that keeps members is read from an object whose members give its fields, with
the members of no field kept and settled. -/
theorem Shape.decode_openRecord_iff {depth : Depth} {β : Type} {name : String}
    {fields : Fields β} {make : β → Table String Value → α} {parts : α → β}
    {extras : α → Table String Value} {made : ∀ a, make (parts a) (extras a) = a}
    {node : Node} {a : α} :
    (Shape.openRecord name fields make parts extras made).decode depth node = .ok a ↔
      ∃ start members inner entries values left kept table, node = .object start members ∧
        depth.enter start = .ok inner ∧ members.entries? = some entries ∧
        fields.Reads inner entries values left ∧
        List.Forall₂ (Keeps inner) left kept ∧ settleExtras kept = .ok table ∧
        make values table = a := by
  cases node with
  | object start members =>
    simp only [Shape.decode, Except.bind_eq_ok_iff, Except.pure_eq_ok_iff, Prod.exists,
      decodeMembers_eq_ok_iff, Except.mapError_eq_ok_iff]
    constructor
    · rintro ⟨inner, henter, slots, extras, stop, ⟨entries, hentries, hwalk, rfl⟩, values,
        hvalues, table, htable, hmake⟩
      obtain ⟨left, kept, hfill, hkeeps, rfl⟩ :=
        (walk_keeping_iff (fields.attuned inner) inner (fun _ _ _ _ h => by simp only [h])
          (fun _ _ _ h => by simp only [h])).mp hwalk
      rw [List.append_nil, List.reverse_reverse] at htable
      exact ⟨start, members, inner, entries, values, left, kept, table, rfl, henter, hentries,
        (fields.reads_iff members.stop).mp ⟨slots, hfill, hvalues⟩, hkeeps, htable, hmake⟩
    · rintro ⟨_, _, inner, entries, values, left, kept, table, h, henter, hentries, hreads,
        hkeeps, htable, hmake⟩
      cases h
      obtain ⟨slots, hfill, hvalues⟩ := (fields.reads_iff members.stop).mpr hreads
      refine ⟨inner, henter, slots, kept.reverse ++ [], _, ⟨entries, hentries, ?_, rfl⟩,
        values, hvalues, table, ?_, hmake⟩
      · exact (walk_keeping_iff (fields.attuned inner) inner
          (fun _ _ _ _ h => by simp only [h])
          (fun _ _ _ h => by simp only [h])).mpr ⟨left, kept, hfill, hkeeps, rfl⟩
      rw [List.append_nil, List.reverse_reverse, htable]
  | _ => simp [Shape.decode, mismatch_ne_ok]

/-- A walk that collects the members of an object under their keys. -/
theorem walk_inserting_iff {read : Node → Except Fault α} {entries : List (String × Node)}
    {t t' : Table String α} :
    Walk (fun _ _ => none) (fun key value t => do return t.insert key (← read value))
        entries t t' ↔
      ∃ pairs : List (String × α),
        List.Forall₂ (fun entry pair => entry.1 = pair.1 ∧ read entry.2 = .ok pair.2)
          entries pairs ∧
        t' = pairs.foldl (fun t pair => t.insert pair.1 pair.2) t := by
  constructor
  · intro h
    induction h with
    | done => exact ⟨[], .nil, rfl⟩
    | @step key value entries t m t' _ hadd _ ih =>
      obtain ⟨pairs, hpairs, rfl⟩ := ih
      simp only [Except.bind_eq_ok_iff, Except.pure_eq_ok_iff] at hadd
      obtain ⟨a, ha, rfl⟩ := hadd
      exact ⟨(key, a) :: pairs, .cons ⟨rfl, ha⟩ hpairs, rfl⟩
  · rintro ⟨pairs, hpairs, rfl⟩
    induction hpairs generalizing t with
    | nil => exact .done
    | @cons entry pair _ _ hpair _ ih =>
      obtain ⟨key, value⟩ := entry
      obtain ⟨rfl, ha⟩ := hpair
      refine .step (m := t.insert pair.1 pair.2) rfl ?_ ih
      simp only [ha]
      rfl

/-- A table is read from an object of which every value is read; of several with one key the
last one counts. -/
theorem Shape.decode_table_iff {depth : Depth} {item : Shape α} {node : Node}
    {t : Table String α} :
    (Shape.table item).decode depth node = .ok t ↔
      ∃ start members inner entries pairs, node = .object start members ∧
        depth.enter start = .ok inner ∧ members.entries? = some entries ∧
        List.Forall₂ (fun entry pair => entry.1 = pair.1 ∧
          item.decode inner entry.2 = .ok pair.2) entries pairs ∧ .ofList pairs = t := by
  cases node with
  | object start members =>
    simp only [Shape.decode, Except.bind_eq_ok_iff, Except.pure_eq_ok_iff, Prod.exists,
      decodeMembers_eq_ok_iff]
    constructor
    · rintro ⟨inner, henter, t, _, ⟨entries, hentries, hwalk, -⟩, rfl⟩
      obtain ⟨pairs, hpairs, rfl⟩ := walk_inserting_iff.mp hwalk
      exact ⟨start, members, inner, entries, pairs, rfl, henter, hentries, hpairs, rfl⟩
    · rintro ⟨_, _, inner, entries, pairs, h, henter, hentries, hpairs, rfl⟩
      cases h
      exact ⟨inner, henter, _, _,
        ⟨entries, hentries, walk_inserting_iff.mpr ⟨pairs, hpairs, rfl⟩, rfl⟩, rfl⟩
  | _ => simp [Shape.decode, mismatch_ne_ok]

/-- A string stands for a case if it spells the name of the case. -/
theorem decodeName_iff {cases : List (String × α)} {spelling : Spelling} {a : α} :
    decodeName cases spelling = .ok a ↔
      ∃ name, spelling.text = .ok name ∧ cases.lookup name = some a := by
  simp only [decodeName, Except.bind_eq_ok_iff]
  refine exists_congr fun name => and_congr_right fun _ => ?_
  cases cases.lookup name <;> simp

/-- An object stands for a case if its only key is the name of the case, with the
value `null`. -/
theorem decodeNameObject_iff {cases : List (String × α)} {members : Members} {a : α} :
    decodeNameObject cases members = .ok a ↔
      ∃ name place, members.entries? = some [(name, .null place)] ∧
        cases.lookup name = some a := by
  cases members with
  | member key pause value after rest =>
    simp only [decodeNameObject, Except.bind_eq_ok_iff, Except.pure_eq_ok_iff, decodeName_iff,
      Members.entries?]
    constructor
    · rintro ⟨a, ⟨name, hname, hcase⟩, _, halone, rfl⟩
      cases value with
      | null place =>
        cases rest with
        | close _ => exact ⟨name, place, by simp [hname, Members.entries?], hcase⟩
        | _ => simp [checkNameAlone] at halone
      | _ =>
        simp only [checkNameAlone, Except.bind_eq_ok_iff] at halone
        obtain ⟨_, hvalue, -⟩ := halone
        exact absurd hvalue mismatch_ne_ok
    · rintro ⟨name, place, hentries, hcase⟩
      cases hkey : key.text with
      | error _ => simp [hkey] at hentries
      | ok key =>
        simp only [hkey, Option.map_eq_some_iff, List.cons.injEq, Prod.mk.injEq] at hentries
        obtain ⟨later, hlater, ⟨rfl, rfl⟩, rfl⟩ := hentries
        refine ⟨a, ⟨key, rfl, hcase⟩, (), ?_, rfl⟩
        cases rest with
        | close _ => rfl
        | member key' _ _ _ _ =>
          rw [Members.entries?] at hlater
          cases hkey' : key'.text <;> simp [hkey'] at hlater
        | _ => simp [Members.entries?] at hlater
  | halted key pause fault => simp [decodeNameObject, Members.entries?]
  | close _ | badKey _ | noKey _ | trailing _ | unfinished _ | stray _ | ended _ =>
    simp [decodeNameObject, Members.entries?]

/-- A case is read from a string that spells its name, or from an object whose only key
is its name. -/
theorem decodeChoice_iff {depth : Depth} {cases : List (String × α)} {node : Node} {a : α} :
    decodeChoice depth cases node = .ok a ↔
      (∃ spelling name, node = .text spelling ∧ spelling.text = .ok name ∧
        cases.lookup name = some a) ∨
        ∃ start members inner name place, node = .object start members ∧
          depth.enter start = .ok inner ∧ members.entries? = some [(name, .null place)] ∧
          cases.lookup name = some a := by
  cases node with
  | text spelling => simp [decodeChoice, decodeName_iff]
  | object start members =>
    simp only [decodeChoice, Except.bind_eq_ok_iff, decodeNameObject_iff]
    constructor
    · rintro ⟨inner, henter, name, place, hentries, hcase⟩
      exact .inr ⟨start, members, inner, name, place, rfl, henter, hentries, hcase⟩
    · rintro (⟨_, _, h, -⟩ | ⟨_, _, inner, name, place, h, henter, hentries, hcase⟩)
      · cases h
      · cases h
        exact ⟨inner, henter, name, place, hentries, hcase⟩
  | _ => simp [decodeChoice]

/-- A text is read if its tree is, and nothing follows the tree. -/
theorem ofBytes_eq_ok_iff {shape : Shape α} {text : List UInt8} {a : α} :
    shape.ofBytes text = .ok a ↔
      shape.decode .ofText (Document.ofBytes text).root = .ok a ∧
        (Document.ofBytes text).surplus = none := by
  rw [Shape.ofBytes, Except.mapError_eq_ok_iff, Document.use, Except.bind_eq_ok_iff]
  cases (Document.ofBytes text).surplus <;> simp

end ApiSurface.Wire
