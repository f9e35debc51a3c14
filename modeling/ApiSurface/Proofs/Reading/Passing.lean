import ApiSurface.Proofs.Reading.Shapes

/-!
# What is read could have been passed over

Passing over a value checks only its form. A value that is read or kept has that form too,
whatever shape it is read by, so a faulty form is never missed by reading instead of passing
over. The converse fails: what is passed over may be of any kind, and need not be text.

## Main results

* `Json.Node.skip_of_keep`: a value that is kept could have been passed over.
* `Shape.skip_of_decode`: a value that is read by a shape could have been passed over.
-/

namespace ApiSurface

open Json Wire

/-! ### Arrays and objects -/

/-- An array whose bracket is in place is passed over if all its items are. -/
theorem Json.Items.skip_of_nodes {items : Items} {nodes : List Node}
    (h : items.nodes? = some nodes) (each : ∀ node ∈ nodes, node.skip = .ok ()) :
    items.skip = .ok () := by
  induction h using Items.rec_nodes with
  | close stop => rfl
  | item seen value rest nodes _ ih =>
    obtain ⟨hvalue, hrest⟩ := List.forall_mem_cons.mp each
    rw [Items.skip, hvalue]
    exact ih hrest

/-- An object whose brace is in place is passed over if all its values are. -/
theorem Json.Members.skip_of_entries {members : Members} {entries : List (String × Node)}
    (h : members.entries? = some entries) (each : ∀ entry ∈ entries, entry.2.skip = .ok ()) :
    members.skip = .ok () := by
  induction h using Members.rec_entries with
  | close stop => rfl
  | member key pause value after rest name entries _ _ ih =>
    obtain ⟨hvalue, hrest⟩ := List.forall_mem_cons.mp each
    rw [Members.skip, hvalue]
    exact ih hrest

/-- What is read one after the other could have been passed over. -/
theorem Wire.skip_of_forall₂ {α β : Type} {R : α → β → Prop} (node : α → Node)
    (passes : ∀ {a b}, R a b → (node a).skip = .ok ()) {as : List α} {bs : List β}
    (h : List.Forall₂ R as bs) : ∀ a ∈ as, (node a).skip = .ok () := by
  induction h with
  | nil => simp
  | cons hab _ ih => exact List.forall_mem_cons.mpr ⟨passes hab, ih⟩

/-- A value that is kept could have been passed over. -/
theorem Json.Node.skip_of_keep {depth : Depth} {node : Node} {value : Value}
    (h : node.keep depth = .ok value) : node.skip = .ok () := by
  refine Node.rec_kept (P := fun node _ => node.skip = .ok ())
    ?null ?bool ?number ?text ?array ?object h
  case array =>
    intro start items nodes values hnodes hvalues
    exact Items.skip_of_nodes hnodes (skip_of_forall₂ id id hvalues)
  case object =>
    intro start members entries kept hentries hkept
    exact Members.skip_of_entries hentries (skip_of_forall₂ Prod.snd And.right hkept)
  all_goals
    intros
    rfl

/-! ### Shapes -/

namespace Wire

/-- A node that spells a name could have been passed over. -/
theorem skip_of_decodeFlag {node : Node} {b : Bool} (h : decodeFlag node = .ok b) :
    node.skip = .ok () := by
  cases node with
  | bool _ _ => rfl
  | _ => exact absurd h mismatch_ne_ok

/-- What stands under a key or besides it is all that stands in an object. -/
theorem skip_of_under_besides {key : String} {entries : List (String × Node)}
    (hunder : ∀ node ∈ under key entries, node.skip = .ok ())
    (hbesides : ∀ entry ∈ besides key entries, entry.2.skip = .ok ()) :
    ∀ entry ∈ entries, entry.2.skip = .ok () := by
  intro entry hentry
  by_cases hkey : entry.1 = key
  · exact hunder _ (List.mem_map_of_mem (List.mem_filter.mpr ⟨hentry, by simpa using hkey⟩))
  · exact hbesides entry (List.mem_filter.mpr ⟨hentry, by simpa using hkey⟩)

/-- The first item and those after it are all that stands in an array. -/
theorem skip_of_take_drop {nodes : List Node}
    (hfirst : ∀ node ∈ nodes.take 1, node.skip = .ok ())
    (hlater : ∀ node ∈ nodes.drop 1, node.skip = .ok ()) :
    ∀ node ∈ nodes, node.skip = .ok () := by
  cases nodes with
  | nil => simp
  | cons node nodes => exact List.forall_mem_cons.mpr ⟨hfirst node (by simp), hlater⟩

section Read

variable {α : Type} {read : Node → Except Fault α} {nodes : List Node}
  (passes : ∀ {node a}, read node = .ok a → node.skip = .ok ())
include passes

/-- The only value under a key could have been passed over if it is read. -/
theorem skip_of_only {a : α} (h : ∃ node, nodes = [node] ∧ read node = .ok a) :
    ∀ node ∈ nodes, node.skip = .ok () := by
  obtain ⟨node, rfl, ha⟩ := h
  intro node' hnode'
  rw [List.mem_singleton.mp hnode']
  exact passes ha

/-- What gives the value of a field could have been passed over. -/
theorem skip_of_gives {default a : α} (h : Gives read default nodes a) :
    ∀ node ∈ nodes, node.skip = .ok () := by
  obtain ⟨rfl, -⟩ | h := h
  · simp
  · exact skip_of_only passes h

/-- A value that may be `null` could have been passed over if it is read. -/
theorem skip_of_decodeNullable {node : Node} {a : Option α}
    (h : decodeNullable read node = .ok a) : node.skip = .ok () := by
  cases node with
  | null _ => rfl
  | _ =>
    simp only [decodeNullable, Except.map_eq_ok_iff] at h
    obtain ⟨b, hb, -⟩ := h
    exact passes hb

end Read

mutual
/-- **Reading checks the form.** A value that is read by a shape could have been
passed over. -/
theorem Shape.skip_of_decode {depth : Depth} :
    {α : Type} → (shape : Shape α) → {node : Node} → {a : α} →
      shape.decode depth node = .ok a → node.skip = .ok ()
  | _, .list item, node, as, h => by
    obtain ⟨start, items, inner, nodes, rfl, -, hnodes, has⟩ := Shape.decode_list_iff.mp h
    exact Items.skip_of_nodes hnodes (skip_of_forall₂ id item.skip_of_decode has)
  | _, .table item, node, t, h => by
    obtain ⟨start, members, inner, entries, pairs, rfl, -, hentries, hpairs, -⟩ :=
      Shape.decode_table_iff.mp h
    refine Members.skip_of_entries hentries (skip_of_forall₂ Prod.snd ?_ hpairs)
    rintro entry pair ⟨-, hpair⟩
    exact item.skip_of_decode hpair
  | _, .record name fields make parts made, node, a, h => by
    obtain ⟨start, inner, values, -, -, ⟨members, entries, left, rfl, hentries, hreads,
      hskip⟩ | ⟨items, nodes, rfl, hnodes, hreads⟩⟩ := Shape.decode_record_iff.mp h
    · exact Members.skip_of_entries hentries (fields.skip_of_reads hreads hskip)
    · exact Items.skip_of_nodes hnodes (fields.skip_of_readsInOrder hreads)
  | _, .openRecord name fields make parts extras made, node, a, h => by
    obtain ⟨start, members, inner, entries, values, left, kept, table, rfl, -, hentries,
      hreads, hkeeps, -, -⟩ := Shape.decode_openRecord_iff.mp h
    refine Members.skip_of_entries hentries
      (fields.skip_of_reads hreads (skip_of_forall₂ Prod.snd ?_ hkeeps))
    rintro entry kept ⟨-, hkeep⟩
    exact Node.skip_of_keep hkeep
  | _, .choice cases name named, node, a, h => by
    obtain ⟨spelling, _, rfl, -⟩ | ⟨start, members, _, name, place, rfl, -, hentries, -⟩ :=
      decodeChoice_iff.mp h
    · rfl
    · exact Members.skip_of_entries hentries (by simp [Node.skip])
  | _, .raw, node, _, h => by
    simp only [Shape.decode, Except.bind_eq_ok_iff] at h
    obtain ⟨_, hskip, -⟩ := h
    exact hskip
  | _, .flag, node, _, h => skip_of_decodeFlag h
  | _, .text, node, _, h | _, .word32, node, _, h | _, .word64, node, _, h => by
    cases node with
    | text _ | number _ _ _ => rfl
    | _ =>
      simp [Shape.decode, Node.readText, decodeNatural, mismatch, Except.map_eq_ok_iff] at h

/-- The members of an object that gives some fields could have been passed over, if those
left over could. -/
theorem Fields.skip_of_reads {depth : Depth} :
    {β : Type} → (fields : Fields β) → {entries left : List (String × Node)} → {values : β} →
      fields.Reads depth entries values left → (∀ entry ∈ left, entry.2.skip = .ok ()) →
      ∀ entry ∈ entries, entry.2.skip = .ok ()
  | _, .done, entries, left, _, h, hskip => by
    cases h
    exact hskip
  | _, .required key shape rest, entries, left, values, h, hskip =>
    skip_of_under_besides (skip_of_only shape.skip_of_decode h.1)
      (rest.skip_of_reads h.2 hskip)
  | _, .defaulted key shape default rest, entries, left, values, h, hskip =>
    skip_of_under_besides (skip_of_gives shape.skip_of_decode h.1)
      (rest.skip_of_reads h.2 hskip)
  | _, .optional key shape rest, entries, left, values, h, hskip =>
    skip_of_under_besides (skip_of_gives (skip_of_decodeNullable shape.skip_of_decode) h.1)
      (rest.skip_of_reads h.2 hskip)
  | _, .mark key rest, entries, left, values, h, hskip =>
    skip_of_under_besides (skip_of_gives skip_of_decodeFlag h.1) (rest.skip_of_reads h.2 hskip)

/-- The items of an array that gives some fields could have been passed over. -/
theorem Fields.skip_of_readsInOrder {depth : Depth} :
    {β : Type} → (fields : Fields β) → {nodes : List Node} → {values : β} →
      fields.ReadsInOrder depth nodes values → ∀ node ∈ nodes, node.skip = .ok ()
  | _, .done, nodes, _, h => by
    cases h
    simp
  | _, .required key shape rest, nodes, values, h =>
    skip_of_take_drop (skip_of_only shape.skip_of_decode h.1) (rest.skip_of_readsInOrder h.2)
  | _, .defaulted key shape default rest, nodes, values, h =>
    skip_of_take_drop (skip_of_gives shape.skip_of_decode h.1) (rest.skip_of_readsInOrder h.2)
  | _, .optional key shape rest, nodes, values, h =>
    skip_of_take_drop (skip_of_gives (skip_of_decodeNullable shape.skip_of_decode) h.1)
      (rest.skip_of_readsInOrder h.2)
  | _, .mark key rest, nodes, values, h =>
    skip_of_take_drop (skip_of_gives skip_of_decodeFlag h.1) (rest.skip_of_readsInOrder h.2)
end

end Wire

end ApiSurface
