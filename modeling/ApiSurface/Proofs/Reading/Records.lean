import ApiSurface.Proofs.Reading.Walks

/-!
# The fields of a record

What a *successful* reading of a record has seen can be said without the order of its steps:
each field stands under its key at most once, or in its place in an array, and a field that
is missing has a value to assume. The theorems of this module say so for all fields at once.

## Main results

* `Fields.Reads`, `Fields.reads_iff`: what the members of an object give for some fields,
  and that a walk over the members finds exactly that.
* `Fields.ReadsInOrder`, `Fields.readsInOrder_iff`: the same for the items of an array.
-/

namespace ApiSurface.Wire

open Json

variable {α σ : Type}

/-! ### The fields of a record -/

/-- Reads a value that may be `null`. -/
def decodeNullable (decode : Node → Except Fault α) : Node → Except Fault (Option α)
  | .null _ => .ok none
  | node => (decode node).map some

/-- What the values under the key of a field give: what the only one spells, or a value
assumed if there is none. -/
def Gives (read : Node → Except Fault α) (default : α) (nodes : List Node) (a : α) : Prop :=
  (nodes = [] ∧ a = default) ∨ ∃ node, nodes = [node] ∧ read node = .ok a

/-- What the members of an object give for some fields, and which members are those
of no field. -/
def Fields.Reads (depth : Depth) {β : Type} :
    Fields β → List (String × Node) → β → List (String × Node) → Prop
  | .done, entries, _, left => left = entries
  | .required key shape rest, entries, values, left =>
    (∃ node, under key entries = [node] ∧ shape.decode depth node = .ok values.1) ∧
      rest.Reads depth (besides key entries) values.2 left
  | .defaulted key shape default rest, entries, values, left =>
    Gives (shape.decode depth) default (under key entries) values.1 ∧
      rest.Reads depth (besides key entries) values.2 left
  | .optional key shape rest, entries, values, left =>
    Gives (decodeNullable (shape.decode depth)) none (under key entries) values.1 ∧
      rest.Reads depth (besides key entries) values.2 left
  | .mark key rest, entries, values, left =>
    Gives decodeFlag false (under key entries) values.1 ∧
      rest.Reads depth (besides key entries) values.2 left

/-- Walks over members that fill the slots of some fields. -/
abbrev Fields.Fills (depth : Depth) {β : Type} (fields : Fields β) :
    List (String × Node) → fields.Slots → fields.Slots → List (String × Node) → Prop :=
  Fill fields.repeated (fields.store depth)

/-- Storing and looking for repeated keys go by the same keys. -/
theorem Fields.attuned (depth : Depth) :
    {β : Type} → (fields : Fields β) → Attuned fields.repeated (fields.store depth)
  | _, .done => fun _ _ _ _ => rfl
  | _, .required name _ rest | _, .defaulted name _ _ rest
  | _, .optional name _ rest | _, .mark name rest => by
    intro key value slots h
    simp only [Fields.store] at h
    split at h
    · cases h
    · next hne =>
      rw [Option.map_eq_none_iff] at h
      simp only [Fields.repeated, Fields.repeated.again, hne, if_false]
      exact rest.attuned depth key value slots.2 h

/-- The value of a slot that has been filled from an empty one, with a value to assume. -/
theorem gives_iff_slotGets {read : Node → Except Fault α} {default a : α} {nodes : List Node} :
    Gives read default nodes a ↔ ∃ slot, SlotGets read nodes none slot ∧
      slot.getD default = a := by
  constructor
  · rintro (⟨rfl, rfl⟩ | ⟨node, rfl, ha⟩)
    · exact ⟨none, .inl ⟨rfl, rfl⟩, rfl⟩
    · exact ⟨some a, .inr ⟨rfl, node, a, rfl, ha, rfl⟩, rfl⟩
  · rintro ⟨slot, ⟨rfl, rfl⟩ | ⟨-, node, a', rfl, ha, rfl⟩, rfl⟩
    · exact .inl ⟨rfl, rfl⟩
    · exact .inr ⟨node, rfl, ha⟩

/-- Storing the value of an optional field reads a value that may be `null`. -/
theorem Fields.store_optional {depth : Depth} {α β : Type} (key : String) (shape : Shape α)
    (rest : Fields β) :
    (Fields.optional key shape rest).store depth =
      headStore key (decodeNullable (shape.decode depth)) (rest.store depth) := by
  funext name value slots
  have hmap (r : Except Fault α) : r.map (fun a => (some (some a), slots.2)) =
      (r.map some).map fun a => (some a, slots.2) := by
    cases r <;> rfl
  cases value with
  | null _ => rfl
  | _ => exact congrArg (fun r => if name = key then some r else _) (hmap _)

/-- The slots of a first field and others are filled from empty ones independently. -/
theorem fill_head_iff {key : String} {read : Node → Except Fault α}
    {repeated : String → σ → Option Cause}
    {store : String → Node → σ → Option (Except Fault σ)} {entries left : List (String × Node)}
    {s s' : Option α × σ} :
    Fill (headRepeated key repeated) (headStore key read store) entries s s' left ↔
      SlotGets read (under key entries) s.1 s'.1 ∧
        Fill repeated store (besides key entries) s.2 s'.2 left :=
  ⟨Fill.of_head, fun ⟨hslot, hfill⟩ => .head hslot hfill⟩

/-- Fields of which the first one assumes a value if it is missing. -/
theorem reads_head_iff {β : Type} {rest : Fields β} {depth : Depth} {stop : Nat} {key : String}
    {read : Node → Except Fault α} {default a : α} {b : β}
    {entries left : List (String × Node)}
    (ih : (∃ slots, rest.Fills depth (besides key entries) rest.unread slots left ∧
      rest.complete stop slots = .ok b) ↔ rest.Reads depth (besides key entries) b left) :
    (∃ slots : Option α × rest.Slots,
      Fill (headRepeated key rest.repeated) (headStore key read (rest.store depth)) entries
          (none, rest.unread) slots left ∧
        (do return (slots.1.getD default, ← rest.complete stop slots.2)) =
          (Except.ok (a, b) : Except Fault (α × β))) ↔
      Gives read default (under key entries) a ∧
      rest.Reads depth (besides key entries) b left := by
  simp only [fill_head_iff, gives_iff_slotGets, ← ih, Except.bind_eq_ok_iff,
    Except.pure_eq_ok_iff, Prod.mk.injEq]
  constructor
  · rintro ⟨⟨slot, slots⟩, ⟨hslot, hfill⟩, b, hb, ha, rfl⟩
    exact ⟨⟨slot, hslot, ha⟩, slots, hfill, hb⟩
  · rintro ⟨⟨slot, hslot, ha⟩, slots, hfill, hb⟩
    exact ⟨(slot, slots), ⟨hslot, hfill⟩, b, hb, ha, rfl⟩

/-- Where there are no fields, all members are left over. -/
theorem fill_none_iff {repeated : String → σ → Option Cause} {s s' : σ}
    {entries left : List (String × Node)} :
    Fill repeated (fun _ _ _ => none) entries s s' left ↔ s' = s ∧ left = entries := by
  constructor
  · intro h
    induction h with
    | done => exact ⟨rfl, rfl⟩
    | field _ hstore => cases hstore
    | other _ _ ih =>
      obtain ⟨hs, hleft⟩ := ih
      exact ⟨hs, by rw [hleft]⟩
  · rintro ⟨rfl, rfl⟩
    induction left with
    | nil => exact .done
    | cons entry left ih => exact .other rfl ih

/-- **Readings of fields.** A walk over the members of an object fills the slots of some
fields, and completes them, exactly with what the members give for each field on its own. -/
theorem Fields.reads_iff {depth : Depth} (stop : Nat) {left : List (String × Node)} :
    {β : Type} → (fields : Fields β) → {entries : List (String × Node)} → {values : β} →
      ((∃ slots, fields.Fills depth entries fields.unread slots left ∧
        fields.complete stop slots = .ok values) ↔ fields.Reads depth entries values left)
  | _, .done, entries, values => by
    constructor
    · rintro ⟨slots, hfill, -⟩
      exact (fill_none_iff.mp hfill).2
    · rintro rfl
      exact ⟨(), fill_none_iff.mpr ⟨rfl, rfl⟩, rfl⟩
  | _, .required key shape rest, entries, values => by
    rw [Fields.Reads, ← rest.reads_iff stop]
    constructor
    · rintro ⟨⟨slot, slots⟩, hfill, hcomplete⟩
      obtain ⟨hslot, hrest⟩ := fill_head_iff.mp hfill
      simp only [Fields.complete] at hcomplete
      obtain ⟨-, rfl⟩ | ⟨-, node, a, hnode, ha, rfl⟩ := hslot
      · cases hcomplete
      · simp only [Except.bind_eq_ok_iff, Except.pure_eq_ok_iff] at hcomplete
        obtain ⟨b, hb, rfl⟩ := hcomplete
        exact ⟨⟨node, hnode, ha⟩, slots, hrest, hb⟩
    · rintro ⟨⟨node, hnode, ha⟩, slots, hrest, hb⟩
      have hslot : SlotGets (shape.decode depth) (under key entries) none (some values.1) :=
        .inr ⟨rfl, node, values.1, hnode, ha, rfl⟩
      refine ⟨(some values.1, slots), fill_head_iff.mpr ⟨hslot, hrest⟩, ?_⟩
      simp only [Fields.complete, hb]
      rfl
  | _, .defaulted key shape default rest, entries, values =>
    reads_head_iff (rest.reads_iff stop)
  | _, .optional key shape rest, entries, values => by
    unfold Fields.Fills
    rw [Fields.store_optional]
    exact reads_head_iff (rest.reads_iff stop)
  | _, .mark key rest, entries, values =>
    reads_head_iff (rest.reads_iff stop)

/-! ### Records written as arrays -/

/-- What the items of an array give for some fields, in their order. No item is left over. -/
def Fields.ReadsInOrder (depth : Depth) {β : Type} : Fields β → List Node → β → Prop
  | .done, nodes, _ => nodes = []
  | .required _ shape rest, nodes, values =>
    (∃ node, nodes.take 1 = [node] ∧ shape.decode depth node = .ok values.1) ∧
      rest.ReadsInOrder depth (nodes.drop 1) values.2
  | .defaulted _ shape default rest, nodes, values =>
    Gives (shape.decode depth) default (nodes.take 1) values.1 ∧
      rest.ReadsInOrder depth (nodes.drop 1) values.2
  | .optional _ shape rest, nodes, values =>
    Gives (decodeNullable (shape.decode depth)) none (nodes.take 1) values.1 ∧
      rest.ReadsInOrder depth (nodes.drop 1) values.2
  | .mark _ rest, nodes, values =>
    Gives decodeFlag false (nodes.take 1) values.1 ∧
      rest.ReadsInOrder depth (nodes.drop 1) values.2

/-- No item is left exactly when the closing bracket is next. -/
theorem checkSurplus_eq_ok_iff {depth : Depth} {items rest : Items} {u : Unit} :
    checkSurplus depth items rest = .ok u ↔ ∃ stop, rest = .close stop := by
  cases rest with
  | item => cases depth <;> simp [checkSurplus]
  | _ => simp [checkSurplus]

/-- The value of the next item, or one to assume at the end of the array, and the
items after it. -/
def nextOr (read : Node → Except Fault α) (default : α) (items : Items) :
    Except Fault (α × Items) := do
  match ← items.next with
  | some (value, later) => (read value).map fun a => (a, later)
  | none => return (default, items)

/-- What the next item gives, where the items end before the closing bracket at a place. -/
theorem nextOr_eq_ok_iff {read : Node → Except Fault α} {default a : α} {items later : Items} :
    nextOr read default items = .ok (a, later) ↔
      (∃ stop, items = .close stop ∧ a = default ∧ later = items) ∨
        ∃ seen value, items = .item seen value later ∧ read value = .ok a := by
  cases items with
  | close stop =>
    rw [show nextOr read default (.close stop) = .ok (default, .close stop) from rfl]
    constructor
    · intro h
      cases h
      exact .inl ⟨stop, rfl, rfl, rfl⟩
    · rintro (⟨_, -, rfl, rfl⟩ | ⟨_, _, h, -⟩)
      · rfl
      · cases h
  | item seen value rest =>
    rw [show nextOr read default (.item seen value rest) = (read value).map fun a => (a, rest)
      from rfl, Except.map_eq_ok_iff]
    constructor
    · rintro ⟨a, ha, h⟩
      cases h
      exact .inr ⟨seen, value, rfl, ha⟩
    · rintro (⟨_, h, -, -⟩ | ⟨_, _, h, ha⟩)
      · cases h
      · cases h
        exact ⟨a, ha, rfl⟩
  | trailing _ | stray _ | ended _ => simp [nextOr, Items.next, Items.finish]

/-- Fields of which the first one assumes a value if the array ends before it. -/
theorem readsInOrder_head_iff {β : Type} {rest : Fields β} {depth : Depth} {due : String}
    {index : Nat} {read : Node → Except Fault α} {default a : α} {b : β} {items : Items}
    (ih : ∀ {items}, (∃ stop, rest.decodeInOrder depth due index items =
      .ok (b, .close stop)) ↔
      ∃ nodes, items.nodes? = some nodes ∧ rest.ReadsInOrder depth nodes b) :
    (∃ stop, (do
        let (a, later) ← nextOr read default items
        let (values, last) ← rest.decodeInOrder depth due index later
        return ((a, values), last)) = (Except.ok ((a, b), .close stop) : Except Fault _)) ↔
      ∃ nodes, items.nodes? = some nodes ∧ Gives read default (nodes.take 1) a ∧
        rest.ReadsInOrder depth (nodes.drop 1) b := by
  constructor
  · rintro ⟨stop, h⟩
    simp only [Except.bind_eq_ok_iff, Except.pure_eq_ok_iff, Prod.mk.injEq, Prod.exists] at h
    obtain ⟨a, later, ha, b, last, hb, ⟨rfl, rfl⟩, rfl⟩ := h
    obtain ⟨nodes, hnodes, hreads⟩ := ih.mp ⟨stop, hb⟩
    obtain ⟨place, rfl, rfl, rfl⟩ | ⟨seen, value, rfl, hvalue⟩ := nextOr_eq_ok_iff.mp ha
    · cases hnodes
      exact ⟨[], rfl, .inl ⟨rfl, rfl⟩, hreads⟩
    · exact ⟨value :: nodes, by simp [Items.nodes?, hnodes], .inr ⟨value, rfl, hvalue⟩, hreads⟩
  · rintro ⟨nodes, hnodes, hgives, hreads⟩
    simp only [Except.bind_eq_ok_iff, Except.pure_eq_ok_iff, Prod.mk.injEq, Prod.exists]
    cases items with
    | close place =>
      cases hnodes
      obtain ⟨-, rfl⟩ | ⟨_, h, -⟩ := hgives
      · obtain ⟨stop, hb⟩ := ih.mpr ⟨[], show (Items.close place).nodes? = _ from rfl, hreads⟩
        exact ⟨stop, a, .close place, rfl, b, .close stop, hb, ⟨rfl, rfl⟩, rfl⟩
      · cases h
    | item seen value later =>
      simp only [Items.nodes?, Option.map_eq_some_iff] at hnodes
      obtain ⟨nodes, hnodes, rfl⟩ := hnodes
      obtain ⟨h, -⟩ | ⟨_, h, ha⟩ := hgives
      · cases h
      · cases h
        obtain ⟨stop, hb⟩ := ih.mpr ⟨nodes, hnodes, hreads⟩
        exact ⟨stop, a, later, nextOr_eq_ok_iff.mpr (.inr ⟨seen, value, rfl, ha⟩), b,
          .close stop, hb, ⟨rfl, rfl⟩, rfl⟩
    | trailing _ | stray _ | ended _ => cases hnodes

/-- A first field that assumes a value is read from the next item, or assumed. -/
theorem decodeInOrder_defaulted {β : Type} (depth : Depth) (due : String) (index : Nat)
    (key : String) (shape : Shape α) (default : α) (rest : Fields β) (items : Items) :
    (Fields.defaulted key shape default rest).decodeInOrder depth due index items = do
      let (a, later) ← nextOr (shape.decode depth) default items
      let (values, last) ← rest.decodeInOrder depth due (index + 1) later
      return ((a, values), last) := by
  cases items <;> rfl

/-- A first flag is read from the next item, or off. -/
theorem decodeInOrder_mark {β : Type} (depth : Depth) (due : String) (index : Nat)
    (key : String) (rest : Fields β) (items : Items) :
    (Fields.mark key rest).decodeInOrder depth due index items = do
      let (a, later) ← nextOr decodeFlag false items
      let (values, last) ← rest.decodeInOrder depth due (index + 1) later
      return ((a, values), last) := by
  cases items <;> rfl

/-- A first field that may be `null` is read from the next item, or has no value. -/
theorem decodeInOrder_optional {β : Type} (depth : Depth) (due : String) (index : Nat)
    (key : String) (shape : Shape α) (rest : Fields β) (items : Items) :
    (Fields.optional key shape rest).decodeInOrder depth due index items = do
      let (a, later) ← nextOr (decodeNullable (shape.decode depth)) none items
      let (values, last) ← rest.decodeInOrder depth due (index + 1) later
      return ((a, values), last) := by
  have hmap (later : Items) (r : Except Fault α) : r.map (fun a => (some a, later)) =
      (r.map some).map fun a => (a, later) := by
    cases r <;> rfl
  cases items with
  | item _ value later =>
    cases value with
    | null _ => rfl
    | _ => exact congrArg (· >>= _) (hmap later _)
  | _ => rfl

/-- A first field that must be there is read from the next item. -/
theorem decodeInOrder_required_iff {β : Type} {depth : Depth} {due : String} {index : Nat}
    {key : String} {shape : Shape α} {rest : Fields β} {items last : Items} {values : α × β} :
    (Fields.required key shape rest).decodeInOrder depth due index items = .ok (values, last) ↔
      ∃ seen value later, items = .item seen value later ∧
        shape.decode depth value = .ok values.1 ∧
        rest.decodeInOrder depth due (index + 1) later = .ok (values.2, last) := by
  obtain ⟨a, b⟩ := values
  cases items with
  | close _ => simp [Fields.decodeInOrder, Items.next, Items.finish]
  | item seen value later =>
    simp only [Fields.decodeInOrder, Items.next, Except.ok_bind, Except.bind_eq_ok_iff,
      Except.pure_eq_ok_iff, Prod.mk.injEq, Items.item.injEq, Prod.exists]
    constructor
    · rintro ⟨a, ha, b, last, hb, ⟨rfl, rfl⟩, rfl⟩
      exact ⟨seen, value, later, ⟨rfl, rfl, rfl⟩, ha, hb⟩
    · rintro ⟨_, _, _, ⟨rfl, rfl, rfl⟩, ha, hb⟩
      exact ⟨a, ha, b, last, hb, ⟨rfl, rfl⟩, rfl⟩
  | trailing _ | stray _ | ended _ => simp [Fields.decodeInOrder, Items.next, Items.finish]

/-- **Readings in order.** The fields of a record are read from the items of an array, with the
closing bracket after the last one read, exactly with what the items give in their order. -/
theorem Fields.readsInOrder_iff {depth : Depth} (due : String) :
    {β : Type} → (fields : Fields β) → (index : Nat) → {items : Items} → {values : β} →
      ((∃ stop, fields.decodeInOrder depth due index items = .ok (values, .close stop)) ↔
        ∃ nodes, items.nodes? = some nodes ∧ fields.ReadsInOrder depth nodes values)
  | _, .done, _, items, values => by
    simp only [Fields.decodeInOrder, Except.ok.injEq, Prod.mk.injEq, true_and,
      Fields.ReadsInOrder]
    cases items with
    | close place => simp [Items.nodes?]
    | item _ _ rest => simp [Items.nodes?]
    | trailing _ | stray _ | ended _ => simp [Items.nodes?]
  | _, .required _ shape rest, index, items, values => by
    simp only [decodeInOrder_required_iff, Fields.ReadsInOrder]
    constructor
    · rintro ⟨stop, seen, value, later, rfl, ha, hb⟩
      obtain ⟨nodes, hnodes, hreads⟩ := (rest.readsInOrder_iff due (index + 1)).mp ⟨stop, hb⟩
      exact ⟨value :: nodes, by simp [Items.nodes?, hnodes], ⟨value, rfl, ha⟩, hreads⟩
    · rintro ⟨nodes, hnodes, ⟨node, hnode, ha⟩, hreads⟩
      cases items with
      | item seen value later =>
        simp only [Items.nodes?, Option.map_eq_some_iff] at hnodes
        obtain ⟨nodes, hnodes, rfl⟩ := hnodes
        cases hnode
        obtain ⟨stop, hb⟩ :=
          (rest.readsInOrder_iff due (index + 1)).mpr ⟨nodes, hnodes, hreads⟩
        exact ⟨stop, seen, node, later, rfl, ha, hb⟩
      | close _ =>
        cases hnodes
        cases hnode
      | trailing _ | stray _ | ended _ => cases hnodes
  | _, .defaulted _ shape default rest, index, items, values => by
    simp only [decodeInOrder_defaulted]
    exact readsInOrder_head_iff (rest.readsInOrder_iff due (index + 1))
  | _, .optional _ shape rest, index, items, values => by
    simp only [decodeInOrder_optional]
    exact readsInOrder_head_iff (rest.readsInOrder_iff due (index + 1))
  | _, .mark _ rest, index, items, values => by
    simp only [decodeInOrder_mark]
    exact readsInOrder_head_iff (rest.readsInOrder_iff due (index + 1))

end ApiSurface.Wire
