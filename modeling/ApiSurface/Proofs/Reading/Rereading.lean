import ApiSurface.Proofs.Json.Documents
import ApiSurface.Proofs.Reading.Faithful
import ApiSurface.Proofs.Reading.Kept

/-!
# Reading again

A node that spells what a faithful shape writes for a settled value is read as that value.
All of the node is read or kept on the way, so how deeply the node nests decides under which
bounds it is read.

## Main results

* `Shape.ReadsBack`: a value is read back from the nodes that spell it, and no part of them
  is passed over.
* `Shape.readsBack`: all settled values of a faithful shape are read back.
* `Shape.ReadsBack.decode_iff`: under a bound on nesting they are read back if they do not
  nest too deeply.
* `Shape.ofBytes_render_iff`: what has been read from a text, and is written again, is read
  from what is written, unless it nests too deeply.
-/

namespace ApiSurface.Wire

open Json

variable {α β : Type}

/-! ### Values that are read back -/

/-- Whether a value is read back from the nodes that spell what is written for it, of which
no part is passed over. -/
def Shape.ReadsBack (shape : Shape α) (a : α) : Prop :=
  ∀ node, node.keep .unbounded = .ok (shape.encode a) →
    shape.decode .unbounded node = .ok a ∧ shape.nesting node = node.nesting

/-- Whether the values of some fields are read back from the members that are written for
them, before members of no field. -/
def Fields.ReadBack (fields : Fields β) (values : β) : Prop :=
  ∀ own others, List.Forall₂ (Keeps .unbounded) own (fields.members values) →
    (∀ entry ∈ others, entry.1 ∉ fields.keys) →
    fields.Reads .unbounded (own ++ others) values others ∧
      ∀ other : Node → Nat, fields.nesting other (own ++ others) =
        max (deepest (fun entry => entry.2.nesting) own)
          (deepest (fun entry => other entry.2) others)

/-- A relation between lists, and a measure of the members of the first, go over to others
member by member. -/
theorem forall₂_and_deepest {γ δ : Type} {R S : γ → δ → Prop} {f g : γ → Nat} {cs : List γ}
    {ds : List δ} (each : ∀ c, ∀ d ∈ ds, R c d → S c d ∧ f c = g c)
    (h : List.Forall₂ R cs ds) : List.Forall₂ S cs ds ∧ deepest f cs = deepest g cs := by
  induction h with
  | nil => exact ⟨.nil, rfl⟩
  | @cons c d cs ds hcd _ ih =>
    obtain ⟨hS, hfg⟩ := each c d List.mem_cons_self hcd
    obtain ⟨hSs, hfgs⟩ := ih fun c d hd => each c d (List.mem_cons_of_mem _ hd)
    exact ⟨.cons hS hSs, congrArg₂ max hfg hfgs⟩

/-! ### Lists and tables -/

theorem Shape.readsBack_list {item : Shape α} {as : List α}
    (each : ∀ a ∈ as, item.ReadsBack a) : (Shape.list item).ReadsBack as := by
  intro node h
  obtain ⟨start, items, _, nodes, rfl, ⟨⟩, hnodes, hkeep⟩ := Node.hasForm_of_keep h
  rw [List.forall₂_map_right_iff] at hkeep
  obtain ⟨hreads, hnest⟩ := forall₂_and_deepest (fun node a ha => each a ha node) hkeep
  refine ⟨Shape.decode_list_iff.mpr ⟨start, items, .unbounded, nodes, rfl, rfl, hnodes,
    hreads⟩, ?_⟩
  simp only [Shape.nesting_list hnodes, Node.nesting, hnest, Items.nesting_of_nodes hnodes]

theorem Shape.readsBack_table {item : Shape α} {t : Table String α}
    (each : ∀ entry ∈ t.entries, item.ReadsBack entry.2) : (Shape.table item).ReadsBack t := by
  intro node h
  obtain ⟨start, members, _, entries, rfl, ⟨⟩, hentries, hkeep⟩ := Node.hasForm_of_keep h
  rw [List.forall₂_map_right_iff] at hkeep
  obtain ⟨hreads, hnest⟩ := forall₂_and_deepest
    (S := fun entry pair => entry.1 = pair.1 ∧ item.decode .unbounded entry.2 = .ok pair.2)
    (f := fun entry => item.nesting entry.2) (g := fun entry => entry.2.nesting)
    (fun entry pair hpair hkeeps => by
      obtain ⟨hread, hnest⟩ := each pair hpair entry.2 hkeeps.2
      exact ⟨⟨hkeeps.1, hread⟩, hnest⟩) hkeep
  refine ⟨Shape.decode_table_iff.mpr ⟨start, members, .unbounded, entries, t.entries, rfl, rfl,
    hentries, hreads, t.ofList_entries⟩, ?_⟩
  simp only [Shape.nesting_table hentries, Node.nesting, hnest,
    Members.nesting_of_entries hentries]

/-! ### Names, flags and numbers -/

theorem Shape.readsBack_text (s : String) : Shape.text.ReadsBack s := by
  intro node h
  obtain ⟨spelling, rfl, hs⟩ := Node.hasForm_of_keep h
  exact ⟨hs, rfl⟩

theorem Shape.readsBack_flag (b : Bool) : Shape.flag.ReadsBack b := by
  intro node h
  obtain ⟨start, rfl⟩ := Node.hasForm_of_keep h
  exact ⟨rfl, rfl⟩

theorem Shape.readsBack_word32 (w : UInt32) : Shape.word32.ReadsBack w := by
  intro node h
  obtain ⟨start, stop, rfl⟩ := Node.hasForm_of_keep h
  refine ⟨?_, rfl⟩
  rw [Shape.decode, decodeNatural_of_lt _ w.toNat_lt_size, Except.map]
  exact congrArg Except.ok w.ofNat_toNat

theorem Shape.readsBack_word64 (w : UInt64) : Shape.word64.ReadsBack w := by
  intro node h
  obtain ⟨start, stop, rfl⟩ := Node.hasForm_of_keep h
  refine ⟨?_, rfl⟩
  rw [Shape.decode, decodeNatural_of_lt _ w.toNat_lt_size, Except.map]
  exact congrArg Except.ok w.ofNat_toNat

theorem Shape.readsBack_choice {cases : List (String × α)} {name : α → String}
    {named : ∀ a, cases.lookup (name a) = some a} (a : α) :
    (Shape.choice cases name named).ReadsBack a := by
  intro node h
  obtain ⟨spelling, rfl, hs⟩ := Node.hasForm_of_keep h
  exact ⟨decodeName_iff.mpr ⟨name a, hs, named a⟩, rfl⟩

/-- Nothing is written as `null` by a faithful shape. -/
theorem Shape.encode_ne_null_of_faithful (shape : Shape α) (faithful : shape.IsFaithful)
    (a : α) : shape.encode a ≠ .null := by
  cases shape with
  | raw => exact faithful.elim
  | _ => simp [Shape.encode]

/-! ### Fields -/

/-- The members that are written for some fields have keys of these fields. -/
theorem Fields.ne_of_mem_own {fields : Fields β} {values : β} {own : List (String × Node)}
    (h : List.Forall₂ (Keeps .unbounded) own (fields.members values)) {key : String}
    (hkey : key ∉ fields.keys) : ∀ entry ∈ own, entry.1 ≠ key := by
  intro entry hentry
  obtain ⟨member, hmember, hkeeps⟩ := Except.exists_of_forall₂ h.flip hentry
  rw [hkeeps.1]
  exact Fields.ne_of_mem_members hkey member hmember

theorem deepest_append {γ : Type} (f : γ → Nat) (cs ds : List γ) :
    deepest f (cs ++ ds) = max (deepest f cs) (deepest f ds) := by
  induction cs with
  | nil => exact (Nat.zero_max _).symm
  | cons c cs ih => exact (congrArg (max (f c)) ih).trans (Nat.max_assoc _ _ _).symm

/-- What is related to an appended list is appended of what is related to its parts. -/
theorem exists_append_of_forall₂ {γ δ : Type} {R : γ → δ → Prop} {cs : List γ}
    {ds ds' : List δ} (h : List.Forall₂ R cs (ds ++ ds')) :
    ∃ own others, cs = own ++ others ∧ List.Forall₂ R own ds ∧ List.Forall₂ R others ds' :=
  ⟨cs.take ds.length, cs.drop ds.length, (List.take_append_drop _ _).symm,
    List.forall₂_take_append cs ds ds' h, List.forall₂_drop_append cs ds ds' h⟩

theorem deepest_singleton {γ : Type} (f : γ → Nat) (c : γ) : deepest f [c] = f c :=
  Nat.max_zero _

section Head

variable {shape : Shape α} {rest : Fields β} {key : String} {a : α} {b : β}
  {own others : List (String × Node)} (later : rest.ReadBack b) (hkey : key ∉ rest.keys)
  (hothers : ∀ entry ∈ others, entry.1 ∉ key :: rest.keys)
include later hkey hothers

/-- A field that is left out: nothing stands under its key, and the later
fields are read back. -/
theorem head_omitted (hown : List.Forall₂ (Keeps .unbounded) own (rest.members b)) :
    under key (own ++ others) = [] ∧
      rest.Reads .unbounded (besides key (own ++ others)) b others ∧
      ∀ other : Node → Nat, rest.nesting other (besides key (own ++ others)) =
        max (deepest (fun entry => entry.2.nesting) own)
          (deepest (fun entry => other entry.2) others) := by
  have hne : ∀ entry ∈ own ++ others, entry.1 ≠ key := by
    refine List.forall_mem_append.mpr ⟨Fields.ne_of_mem_own hown hkey, ?_⟩
    rintro entry hentry rfl
    exact hothers entry hentry List.mem_cons_self
  have hlater := later own others hown fun entry hentry h =>
    hothers entry hentry (List.mem_cons_of_mem key h)
  rw [besides_of_not_mem hne]
  exact ⟨under_of_not_mem hne, hlater⟩

/-- A first field that is written: its value stands under its key, and the later fields
are read back. -/
theorem head_written {value : Value}
    (hown : List.Forall₂ (Keeps .unbounded) own ((key, value) :: rest.members b)) :
    ∃ node, node.keep .unbounded = .ok value ∧ under key (own ++ others) = [node] ∧
      rest.Reads .unbounded (besides key (own ++ others)) b others ∧
      ∀ other : Node → Nat,
        max node.nesting (rest.nesting other (besides key (own ++ others))) =
        max (deepest (fun entry => entry.2.nesting) own)
          (deepest (fun entry => other entry.2) others) := by
  cases hown with
  | @cons entry _ own _ hkeeps hown =>
    obtain ⟨name, node⟩ := entry
    obtain ⟨rfl, hkeep⟩ := hkeeps
    obtain ⟨hunder, hreads, hnest⟩ := head_omitted later hkey hothers hown
    rw [List.cons_append, under_cons_self, besides_cons_self, hunder]
    refine ⟨node, hkeep, rfl, hreads, fun other => ?_⟩
    rw [hnest, ← Nat.max_assoc]
    rfl

end Head

theorem Fields.readBack_done : Fields.done.ReadBack () := by
  intro own others hown _
  cases hown
  exact ⟨rfl, fun other => (Nat.zero_max _).symm⟩

section Fields

variable {shape : Shape α} {rest : Fields β} {key : String} {b : β} (later : rest.ReadBack b)
  (hkey : key ∉ rest.keys)
include later hkey

theorem Fields.readBack_required {a : α} (first : shape.ReadsBack a) :
    (Fields.required key shape rest).ReadBack (a, b) := by
  intro own others hown hothers
  obtain ⟨node, hkeep, hunder, hreads, hnest⟩ := head_written later hkey hothers hown
  obtain ⟨hread, hfirst⟩ := first node hkeep
  refine ⟨⟨⟨node, hunder, hread⟩, hreads⟩, fun other => ?_⟩
  rw [Fields.nesting_required, hunder, deepest_singleton, hfirst, hnest]

theorem Fields.readBack_defaulted {default a : α} (first : shape.ReadsBack a) :
    (Fields.defaulted key shape default rest).ReadBack (a, b) := by
  intro own others hown hothers
  obtain ⟨node, hkeep, hunder, hreads, hnest⟩ := head_written later hkey hothers hown
  obtain ⟨hread, hfirst⟩ := first node hkeep
  refine ⟨⟨.inr ⟨node, hunder, hread⟩, hreads⟩, fun other => ?_⟩
  rw [Fields.nesting_defaulted, hunder, deepest_singleton, hfirst, hnest]

theorem Fields.readBack_optional_none :
    (Fields.optional key shape rest).ReadBack (none, b) := by
  intro own others hown hothers
  obtain ⟨hunder, hreads, hnest⟩ := head_omitted later hkey hothers hown
  refine ⟨⟨.inl ⟨hunder, rfl⟩, hreads⟩, fun other => ?_⟩
  rw [Fields.nesting_optional, hunder, hnest]
  exact Nat.zero_max _

theorem Fields.readBack_optional_some {a : α} (faithful : shape.IsFaithful)
    (first : shape.ReadsBack a) : (Fields.optional key shape rest).ReadBack (some a, b) := by
  intro own others hown hothers
  obtain ⟨node, hkeep, hunder, hreads, hnest⟩ := head_written later hkey hothers hown
  obtain ⟨hread, hfirst⟩ := first node hkeep
  have hnull : ∀ start, node ≠ .null start := by
    rintro start rfl
    exact shape.encode_ne_null_of_faithful faithful a (Except.ok.inj hkeep).symm
  refine ⟨⟨.inr ⟨node, hunder, decodeNullable_of_ne_null hnull hread⟩, hreads⟩,
    fun other => ?_⟩
  rw [Fields.nesting_optional, hunder, deepest_singleton, hfirst, hnest]

theorem Fields.readBack_mark (marked : Bool) :
    (Fields.mark key rest).ReadBack (marked, b) := by
  intro own others hown hothers
  cases marked with
  | false =>
    obtain ⟨hunder, hreads, hnest⟩ := head_omitted later hkey hothers hown
    exact ⟨⟨.inl ⟨hunder, rfl⟩, hreads⟩, hnest⟩
  | true =>
    obtain ⟨node, hkeep, hunder, hreads, hnest⟩ := head_written later hkey hothers hown
    obtain ⟨start, rfl⟩ := Node.hasForm_of_keep hkeep
    refine ⟨⟨.inr ⟨_, hunder, rfl⟩, hreads⟩, fun other => ?_⟩
    rw [Fields.nesting_mark, ← hnest]
    exact (Nat.zero_max _).symm

end Fields

/-! ### Records -/

section Records

variable {fields : Fields β} {name : String} {values : β} (read : fields.ReadBack values)
include read

theorem Shape.readsBack_record {make : β → α} {parts : α → β} {made : ∀ a, make (parts a) = a}
    {a : α} (hparts : parts a = values) :
    (Shape.record name fields make parts made).ReadsBack a := by
  subst hparts
  intro node h
  obtain ⟨start, members, _, entries, rfl, ⟨⟩, hentries, hkeep⟩ := Node.hasForm_of_keep h
  obtain ⟨hreads, hnest⟩ := read entries [] hkeep nofun
  rw [List.append_nil] at hreads hnest
  refine ⟨Shape.decode_record_iff.mpr ⟨start, .unbounded, parts a, rfl, made a,
    .inl ⟨members, entries, [], rfl, hentries, hreads, nofun⟩⟩, ?_⟩
  simp only [Shape.nesting_record hentries, Node.nesting, hnest,
    Members.nesting_of_entries hentries]
  exact congrArg (· + 1) (Nat.max_zero _)

theorem Shape.readsBack_openRecord {make : β → Table String Value → α} {parts : α → β}
    {extras : α → Table String Value} {made : ∀ a, make (parts a) (extras a) = a} {a : α}
    (hparts : parts a = values)
    (hextras : ∀ entry ∈ (extras a).entries, entry.1 ∉ fields.keys ∧
      entry.2.settle = .ok entry.2) :
    (Shape.openRecord name fields make parts extras made).ReadsBack a := by
  subst hparts
  intro node h
  obtain ⟨start, members, _, entries, rfl, ⟨⟩, hentries, hkeep⟩ := Node.hasForm_of_keep h
  obtain ⟨own, others, rfl, hown, hothers⟩ := exists_append_of_forall₂ hkeep
  have hkeys : ∀ entry ∈ others, entry.1 ∉ fields.keys := by
    intro entry hentry
    obtain ⟨member, hmember, hkeeps⟩ := Except.exists_of_forall₂ hothers.flip hentry
    exact hkeeps.1 ▸ (hextras member hmember).1
  obtain ⟨hreads, hnest⟩ := read own others hown hkeys
  -- What is kept has been settled before, and settling it again leaves it as it is.
  have hsettled : settleExtras (extras a).entries = .ok (extras a) :=
    settleExtras_eq_ok_iff.mpr ⟨(extras a).entries,
      List.forall₂_same.mpr fun entry hentry => ⟨rfl, (hextras entry hentry).2⟩,
      (extras a).ofList_entries⟩
  refine ⟨Shape.decode_openRecord_iff.mpr ⟨start, members, .unbounded, own ++ others, parts a,
    others, (extras a).entries, extras a, rfl, rfl, hentries, hreads, hothers, hsettled,
    made a⟩, ?_⟩
  simp only [Shape.nesting_openRecord hentries, Node.nesting, hnest,
    Members.nesting_of_entries hentries, deepest_append]

end Records

/-! ### All shapes -/

mutual
/-- **Values.** A faithful shape reads a settled value back, provided no object in what is
written for it could be taken for an embedded text. -/
theorem Shape.readsBack :
    {α : Type} → (shape : Shape α) → shape.IsFaithful → {a : α} → shape.IsSettled a →
    (shape.encode a).Everywhere (Value.Lacks embeddingKey) → shape.ReadsBack a
  | _, .text, _, s, _, _ => Shape.readsBack_text s
  | _, .word32, _, w, _, _ => Shape.readsBack_word32 w
  | _, .word64, _, w, _, _ => Shape.readsBack_word64 w
  | _, .flag, _, b, _, _ => Shape.readsBack_flag b
  | _, .choice _ _ _, _, a, _, _ => Shape.readsBack_choice a
  | _, .raw, faithful, _, _, _ => faithful.elim
  | _, .list item, faithful, as, settled, lacks => by
    obtain ⟨-, hitems⟩ := Value.everywhere_array_iff.mp lacks
    exact Shape.readsBack_list fun a ha =>
      item.readsBack faithful (settled a ha) (List.forall_mem_map.mp hitems a ha)
  | _, .table item, faithful, t, settled, lacks => by
    obtain ⟨-, hmembers⟩ := Value.everywhere_object_iff.mp lacks
    exact Shape.readsBack_table fun entry hentry =>
      item.readsBack faithful (settled entry hentry)
        (List.forall_mem_map.mp hmembers entry hentry)
  | _, .record name fields make parts made, faithful, a, settled, lacks => by
    obtain ⟨-, hmembers⟩ := Value.everywhere_object_iff.mp lacks
    exact Shape.readsBack_record (fields.readBack faithful.1 faithful.2.1 settled hmembers) rfl
  | _, .openRecord name fields make parts extras made, faithful, a, settled, lacks => by
    obtain ⟨-, hmembers⟩ := Value.everywhere_object_iff.mp lacks
    obtain ⟨hown, hextras⟩ := List.forall_mem_append.mp hmembers
    refine Shape.readsBack_openRecord (fields.readBack faithful.1 faithful.2.1 settled.1 hown)
      rfl fun entry hentry => ?_
    obtain ⟨hkey, hsettled⟩ := settled.2 entry hentry
    exact ⟨hkey, Value.settle_of_isSettled entry.2 hsettled.ordered (hextras entry hentry)⟩

/-- The same for the values of some fields. -/
theorem Fields.readBack :
    {β : Type} → (fields : Fields β) → fields.AreFaithful → fields.keys.Nodup →
    {values : β} → fields.AreSettled values →
    (∀ member ∈ fields.members values, member.2.Everywhere (Value.Lacks embeddingKey)) →
    fields.ReadBack values
  | _, .done, _, _, _, _, _ => Fields.readBack_done
  | _, .required key shape rest, faithful, nodup, values, settled, lacks => by
    obtain ⟨hkey, hrest⟩ := List.nodup_cons.mp nodup
    obtain ⟨hfirst, hlater⟩ := List.forall_mem_cons.mp lacks
    exact Fields.readBack_required (rest.readBack faithful.2 hrest settled.2 hlater) hkey
      (shape.readsBack faithful.1 settled.1 hfirst)
  | _, .defaulted key shape default rest, faithful, nodup, values, settled, lacks => by
    obtain ⟨hkey, hrest⟩ := List.nodup_cons.mp nodup
    obtain ⟨hfirst, hlater⟩ := List.forall_mem_cons.mp lacks
    exact Fields.readBack_defaulted (rest.readBack faithful.2.2 hrest settled.2 hlater) hkey
      (shape.readsBack faithful.1 settled.1 hfirst)
  | _, .optional key shape rest, faithful, nodup, (none, values), settled, lacks => by
    obtain ⟨hkey, hrest⟩ := List.nodup_cons.mp nodup
    exact Fields.readBack_optional_none (rest.readBack faithful.2 hrest settled.2 lacks) hkey
  | _, .optional key shape rest, faithful, nodup, (some a, values), settled, lacks => by
    obtain ⟨hkey, hrest⟩ := List.nodup_cons.mp nodup
    obtain ⟨hfirst, hlater⟩ := List.forall_mem_cons.mp lacks
    exact Fields.readBack_optional_some (rest.readBack faithful.2 hrest settled.2 hlater) hkey
      faithful.1 (shape.readsBack faithful.1 (settled.1 a rfl) hfirst)
  | _, .mark key rest, faithful, nodup, (marked, values), settled, lacks => by
    obtain ⟨hkey, hrest⟩ := List.nodup_cons.mp nodup
    obtain ⟨-, hlater⟩ := List.forall_mem_append.mp lacks
    exact Fields.readBack_mark (rest.readBack faithful hrest settled hlater) hkey marked
end

/-! ### Texts -/

/-- Under a bound on nesting, a value that is read back is all that is read, unless it
nests too deeply. -/
theorem Shape.ReadsBack.decode_iff {shape : Shape α} {a b : α} (h : shape.ReadsBack a)
    {depth : Depth} (hdepth : depth.Admits 0) {node : Node}
    (hkeep : node.keep .unbounded = .ok (shape.encode a)) :
    shape.decode depth node = .ok b ↔ b = a ∧ depth.Admits (shape.encode a).nesting := by
  obtain ⟨hread, hnest⟩ := h node hkeep
  rw [Shape.decode_iff_unbounded hdepth, hread, hnest, Node.nesting_of_keep hkeep,
    Except.ok.injEq, eq_comm]

/-- **Texts.** What a faithful shape has read from a text, and is written again without
floating-point numbers and without the key of embedded texts, is all that is read from what
is written, unless it nests too deeply for a text. -/
theorem Shape.ofBytes_render_iff {shape : Shape α} (faithful : shape.IsFaithful)
    {text : List UInt8} {a b : α} (h : shape.ofBytes text = .ok a)
    (exact : (shape.encode a).Everywhere Value.IsExact)
    (lacks : (shape.encode a).Everywhere (Value.Lacks embeddingKey)) :
    shape.ofBytes (Text.bytes (shape.render a)) = .ok b ↔
      b = a ∧ (shape.encode a).nesting ≤ 127 := by
  obtain ⟨hdecode, -⟩ := ofBytes_eq_ok_iff.mp h
  have settled := shape.isSettled_of_decode faithful (Document.isOfWords_ofBytes text) hdecode
  obtain ⟨hkeep, hsurplus⟩ :=
    Document.ofBytes_render exact (shape.isOfWords_encode faithful settled)
  have hbound : Depth.ofText.Admits (shape.encode a).nesting ↔
      (shape.encode a).nesting ≤ 127 :=
    Nat.lt_succ_iff
  have hdepth : Depth.ofText.Admits 0 := Nat.succ_pos 127
  rw [ofBytes_eq_ok_iff, Shape.render, and_iff_left hsurplus, ← hbound]
  exact (shape.readsBack faithful settled lacks).decode_iff hdepth hkeep

end ApiSurface.Wire
