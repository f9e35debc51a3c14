import ApiSurface.Proofs.Reading.Shapes
import Mathlib.Tactic.Tauto

/-!
# How deeply a reading nests

A bound on the nesting of arrays and objects counts only what is read or kept; what is
passed over may nest without bound. This module measures the nesting that counts, and shows
that a reading under a bound is a reading without one whose nesting stays below the bound.
So a value that is read under one bound is read, as the same value, under every larger one.

## Main results

* `Shape.nesting`: how deeply arrays and objects nest in the parts of a
  node that a shape reads.
* `Shape.measured`: the nesting of what a shape reads decides under which bounds it is read.
* `Shape.decode_iff_unbounded`: reading under a bound, by reading without one and
  `Shape.nesting`.
-/

namespace ApiSurface

open Json Wire

/-! ### Bounds -/

/-- Whether arrays and objects may still be nested to a given depth. -/
def Json.Depth.Admits : Depth → Nat → Prop
  | .upTo n, k => k < n
  | .unbounded, _ => True

namespace Json.Depth

variable {depth inner : Depth} {j k : Nat}

/-- What is admitted at one level deeper is admitted at one more level here. -/
theorem admits_succ_iff (start : Nat) :
    depth.Admits (k + 1) ↔ ∃ inner, depth.enter start = .ok inner ∧ inner.Admits k := by
  cases depth with
  | unbounded => simp [enter, Admits]
  | upTo n =>
    by_cases h : n ≤ 1
    · simp only [enter, if_pos h, Admits]
      constructor
      · intro hk
        omega
      · rintro ⟨_, h, -⟩
        cases h
    · simp only [enter, if_neg h, Except.ok.injEq, exists_eq_left', Admits]
      omega

/-- After entering an array or object something is admitted still: values that do not nest. -/
theorem admits_zero_of_enter {start : Nat} (h : depth.enter start = .ok inner) :
    inner.Admits 0 := by
  cases depth with
  | unbounded =>
    cases h
    trivial
  | upTo n =>
    by_cases hn : n ≤ 1
    · simp [enter, if_pos hn] at h
    · simp only [enter, if_neg hn, Except.ok.injEq] at h
      subst h
      show 0 < n - 1
      omega

theorem Admits.mono (h : depth.Admits k) (hj : j ≤ k) : depth.Admits j := by
  cases depth with
  | unbounded => trivial
  | upTo n => exact Nat.lt_of_le_of_lt hj h

@[simp] theorem admits_max : depth.Admits (max j k) ↔ depth.Admits j ∧ depth.Admits k := by
  constructor
  · intro h
    exact ⟨h.mono (Nat.le_max_left j k), h.mono (Nat.le_max_right j k)⟩
  · rintro ⟨hj, hk⟩
    cases Nat.le_total j k with
    | inl hle => rwa [Nat.max_eq_right hle]
    | inr hle => rwa [Nat.max_eq_left hle]

end Json.Depth

/-- The greatest depth among the members of a list; zero if there is none. -/
def deepest {α : Type} (nesting : α → Nat) (as : List α) : Nat := (as.map nesting).foldr max 0

/-- All members of a list are admitted if the deepest one is. -/
theorem Json.Depth.admits_deepest {α : Type} {depth : Depth} (h : depth.Admits 0)
    {nesting : α → Nat} {as : List α} :
    depth.Admits (deepest nesting as) ↔ ∀ a ∈ as, depth.Admits (nesting a) := by
  induction as with
  | nil => simpa [deepest] using h
  | cons a as ih =>
    rw [show deepest nesting (a :: as) = max (nesting a) (deepest nesting as) from rfl,
      Depth.admits_max, ih, List.forall_mem_cons]

/-! ### Values that are kept -/

mutual
/-- How deeply arrays and objects nest in a node. -/
def Json.Node.nesting : Node → Nat
  | .array _ items => items.nesting + 1
  | .object _ members => members.nesting + 1
  | _ => 0

/-- How deeply arrays and objects nest in some items. -/
def Json.Items.nesting : Items → Nat
  | .item _ value rest => max value.nesting rest.nesting
  | _ => 0

/-- How deeply arrays and objects nest in the values of some members. -/
def Json.Members.nesting : Members → Nat
  | .member _ _ value _ rest => max value.nesting rest.nesting
  | _ => 0
end

/-- An array or object is read under a bound if it is read without one, and the bound admits
one level more than its contents need. -/
theorem Json.Depth.enter_iff {depth : Depth} {start k : Nat} {P : Depth → Prop}
    (h : ∀ inner : Depth, inner.Admits 0 → (P inner ↔ P .unbounded ∧ inner.Admits k)) :
    (∃ inner, depth.enter start = .ok inner ∧ P inner) ↔
      (∃ inner, Depth.unbounded.enter start = .ok inner ∧ P inner) ∧ depth.Admits (k + 1) := by
  constructor
  · rintro ⟨inner, henter, hP⟩
    obtain ⟨hP, hk⟩ := (h inner (Depth.admits_zero_of_enter henter)).mp hP
    exact ⟨⟨.unbounded, rfl, hP⟩, (Depth.admits_succ_iff start).mpr ⟨inner, henter, hk⟩⟩
  · rintro ⟨⟨_, h', hP⟩, hk⟩
    cases h'
    obtain ⟨inner, henter, hk⟩ := (Depth.admits_succ_iff start).mp hk
    exact ⟨inner, henter, (h inner (Depth.admits_zero_of_enter henter)).mpr ⟨hP, hk⟩⟩

mutual
/-- A node is kept under a bound exactly if it is kept without one and
does not nest too deeply. -/
theorem Json.Node.keep_iff_unbounded {depth : Depth} (h : depth.Admits 0) :
    (node : Node) → {value : Value} →
      (node.keep depth = .ok value ↔
        node.keep .unbounded = .ok value ∧ depth.Admits node.nesting)
  | .array start items, value => by
    simp only [Node.keep, Except.bind_eq_ok_iff, Except.pure_eq_ok_iff, Node.nesting]
    refine Depth.enter_iff (P := fun inner => ∃ vs, items.keep inner = .ok vs ∧
      Value.array vs = value) ?_
    intro inner hinner
    simp only [Items.keep_iff_unbounded hinner items]
    grind
  | .object start members, value => by
    simp only [Node.keep, Except.bind_eq_ok_iff, Except.pure_eq_ok_iff, Node.nesting]
    refine Depth.enter_iff (P := fun inner => ∃ vs, members.keep inner = .ok vs ∧
      Value.object vs = value) ?_
    intro inner hinner
    simp only [Members.keep_iff_unbounded hinner members]
    grind
  | .null _, _ | .bool _ _, _ | .number _ _ _, _ | .text _, _ | .broken _ _, _
  | .brokenText _, _
  | .missing _, _ => by
    simp [Node.keep, Node.nesting, h]

/-- Items are kept under a bound exactly if they are without one and do not nest too deeply. -/
theorem Json.Items.keep_iff_unbounded {depth : Depth} (h : depth.Admits 0) :
    (items : Items) → {values : List Value} →
      (items.keep depth = .ok values ↔
        items.keep .unbounded = .ok values ∧ depth.Admits items.nesting)
  | .item _ value rest, values => by
    simp only [Items.keep, Except.bind_eq_ok_iff, Except.pure_eq_ok_iff, Items.nesting,
      Depth.admits_max, Node.keep_iff_unbounded h value, Items.keep_iff_unbounded h rest]
    grind
  | .close _, _ | .trailing _, _ | .stray _, _ | .ended _, _ => by
    simp [Items.keep, Items.nesting, h]

/-- Members are kept under a bound exactly if they are without one and do
not nest too deeply. -/
theorem Json.Members.keep_iff_unbounded {depth : Depth} (h : depth.Admits 0) :
    (members : Members) → {values : List (String × Value)} →
      (members.keep depth = .ok values ↔
        members.keep .unbounded = .ok values ∧ depth.Admits members.nesting)
  | .member key _ value _ rest, values => by
    simp only [Members.keep, Except.bind_eq_ok_iff, Except.pure_eq_ok_iff, Members.nesting,
      Depth.admits_max, Node.keep_iff_unbounded h value, Members.keep_iff_unbounded h rest]
    grind
  | .close _, _ | .halted _ _ _, _ | .badKey _, _ | .noKey _, _ | .trailing _, _
  | .unfinished _, _
  | .stray _, _ | .ended _, _ => by
    simp [Members.keep, Members.nesting, h]
end

/-! ### Shapes -/

mutual
/-- How deeply arrays and objects nest in the parts of a node that a shape reads or keeps.
What it passes over does not count. -/
def Wire.Shape.nesting {α : Type} : Shape α → Node → Nat
  | .text, _ | .word32, _ | .word64, _ | .flag, _ | .raw, _ => 0
  | .choice _ _ _, node =>
    match node with
    | .object _ _ => 1
    | _ => 0
  | .list item, node =>
    match node with
    | .array _ items => deepest item.nesting (items.nodes?.getD []) + 1
    | _ => 0
  | .table item, node =>
    match node with
    | .object _ members =>
      deepest (fun entry => item.nesting entry.2) (members.entries?.getD []) + 1
    | _ => 0
  | .record _ fields _ _ _, node =>
    match node with
    | .array _ items => fields.nestingInOrder (items.nodes?.getD []) + 1
    | .object _ members => fields.nesting (fun _ => 0) (members.entries?.getD []) + 1
    | _ => 0
  | .openRecord _ fields _ _ _ _, node =>
    match node with
    | .object _ members => fields.nesting Node.nesting (members.entries?.getD []) + 1
    | _ => 0

/-- How deeply arrays and objects nest in the members of an object, where members of no
field count by the given measure. -/
def Wire.Fields.nesting (other : Node → Nat) {β : Type} : Fields β → List (String × Node) → Nat
  | .done, entries => deepest (fun entry => other entry.2) entries
  | .required key shape rest, entries =>
    max (deepest shape.nesting (under key entries)) (rest.nesting other (besides key entries))
  | .defaulted key shape _ rest, entries =>
    max (deepest shape.nesting (under key entries)) (rest.nesting other (besides key entries))
  | .optional key shape rest, entries =>
    max (deepest shape.nesting (under key entries)) (rest.nesting other (besides key entries))
  | .mark key rest, entries => rest.nesting other (besides key entries)

/-- How deeply arrays and objects nest in the items of an array that give the fields
of a record. -/
def Wire.Fields.nestingInOrder {β : Type} : Fields β → List Node → Nat
  | .done, _ => 0
  | .required _ shape rest, nodes =>
    max (deepest shape.nesting (nodes.take 1)) (rest.nestingInOrder (nodes.drop 1))
  | .defaulted _ shape _ rest, nodes =>
    max (deepest shape.nesting (nodes.take 1)) (rest.nestingInOrder (nodes.drop 1))
  | .optional _ shape rest, nodes =>
    max (deepest shape.nesting (nodes.take 1)) (rest.nestingInOrder (nodes.drop 1))
  | .mark _ rest, nodes => rest.nestingInOrder (nodes.drop 1)
end

namespace Wire

section Parts

variable {α β : Type} {item shape : Shape α} {fields rest : Fields β} {start : Nat}
  {key : String} {other : Node → Nat} {entries : List (String × Node)} {nodes : List Node}

theorem Shape.nesting_list {items : Items} (h : items.nodes? = some nodes) :
    (Shape.list item).nesting (.array start items) = deepest item.nesting nodes + 1 := by
  show deepest item.nesting (items.nodes?.getD []) + 1 = _
  rw [h, Option.getD_some]

theorem Shape.nesting_table {members : Members} (h : members.entries? = some entries) :
    (Shape.table item).nesting (.object start members) =
      deepest (fun entry => item.nesting entry.2) entries + 1 := by
  show deepest (fun entry => item.nesting entry.2) (members.entries?.getD []) + 1 = _
  rw [h, Option.getD_some]

theorem Shape.nesting_record {name : String} {make : β → α} {parts : α → β}
    {made : ∀ a, make (parts a) = a} {members : Members}
    (h : members.entries? = some entries) :
    (Shape.record name fields make parts made).nesting (.object start members) =
      fields.nesting (fun _ => 0) entries + 1 := by
  show fields.nesting (fun _ => 0) (members.entries?.getD []) + 1 = _
  rw [h, Option.getD_some]

theorem Shape.nesting_record_array {name : String} {make : β → α} {parts : α → β}
    {made : ∀ a, make (parts a) = a} {items : Items} (h : items.nodes? = some nodes) :
    (Shape.record name fields make parts made).nesting (.array start items) =
      fields.nestingInOrder nodes + 1 := by
  show fields.nestingInOrder (items.nodes?.getD []) + 1 = _
  rw [h, Option.getD_some]

theorem Shape.nesting_openRecord {name : String} {make : β → Table String Value → α}
    {parts : α → β} {extras : α → Table String Value}
    {made : ∀ a, make (parts a) (extras a) = a} {members : Members}
    (h : members.entries? = some entries) :
    (Shape.openRecord name fields make parts extras made).nesting (.object start members) =
      fields.nesting Node.nesting entries + 1 := by
  show fields.nesting Node.nesting (members.entries?.getD []) + 1 = _
  rw [h, Option.getD_some]

@[simp] theorem Fields.nesting_done :
    Fields.done.nesting other entries = deepest (fun entry => other entry.2) entries := rfl

@[simp] theorem Fields.nesting_required :
    (Fields.required key shape rest).nesting other entries =
      max (deepest shape.nesting (under key entries))
        (rest.nesting other (besides key entries)) := rfl

@[simp] theorem Fields.nesting_defaulted {default : α} :
    (Fields.defaulted key shape default rest).nesting other entries =
      max (deepest shape.nesting (under key entries))
        (rest.nesting other (besides key entries)) := rfl

@[simp] theorem Fields.nesting_optional :
    (Fields.optional key shape rest).nesting other entries =
      max (deepest shape.nesting (under key entries))
        (rest.nesting other (besides key entries)) := rfl

@[simp] theorem Fields.nesting_mark :
    (Fields.mark key rest).nesting other entries = rest.nesting other (besides key entries) :=
  rfl

@[simp] theorem Fields.nestingInOrder_done : Fields.done.nestingInOrder nodes = 0 := rfl

@[simp] theorem Fields.nestingInOrder_required :
    (Fields.required key shape rest).nestingInOrder nodes =
      max (deepest shape.nesting (nodes.take 1)) (rest.nestingInOrder (nodes.drop 1)) := rfl

@[simp] theorem Fields.nestingInOrder_defaulted {default : α} :
    (Fields.defaulted key shape default rest).nestingInOrder nodes =
      max (deepest shape.nesting (nodes.take 1)) (rest.nestingInOrder (nodes.drop 1)) := rfl

@[simp] theorem Fields.nestingInOrder_optional :
    (Fields.optional key shape rest).nestingInOrder nodes =
      max (deepest shape.nesting (nodes.take 1)) (rest.nestingInOrder (nodes.drop 1)) := rfl

@[simp] theorem Fields.nestingInOrder_mark :
    (Fields.mark key rest).nestingInOrder nodes = rest.nestingInOrder (nodes.drop 1) := rfl

end Parts

/-- Whether the nesting of what a shape reads says under which bounds it is read. -/
def Shape.Measured {α : Type} (shape : Shape α) : Prop :=
  ∀ depth : Depth, depth.Admits 0 → ∀ node a,
    shape.decode depth node = .ok a ↔
      shape.decode .unbounded node = .ok a ∧ depth.Admits (shape.nesting node)

/-- Whether the nesting of what fields read says under which bounds it is read. -/
structure Fields.Measured {β : Type} (fields : Fields β) : Prop where
  /-- The fields as members of an object, where members of no field are admitted by
  some measure. -/
  reads : ∀ depth : Depth, depth.Admits 0 → ∀ (other : Node → Nat) entries left values,
    (fields.Reads depth entries values left ∧ ∀ entry ∈ left, depth.Admits (other entry.2)) ↔
      fields.Reads .unbounded entries values left ∧ depth.Admits (fields.nesting other entries)
  /-- The fields as items of an array. -/
  inOrder : ∀ depth : Depth, depth.Admits 0 → ∀ nodes values,
    fields.ReadsInOrder depth nodes values ↔
      fields.ReadsInOrder .unbounded nodes values ∧ depth.Admits (fields.nestingInOrder nodes)

/-! ### Steps -/

/-- The word `null` does not nest. -/
theorem Shape.nesting_null {α : Type} (shape : Shape α) (start : Nat) :
    shape.nesting (.null start) = 0 := by
  cases shape <;> rfl

/-- If each member of a list is read under a bound exactly when it is read without one and
does not nest too deeply, so is the list. -/
theorem forall₂_iff_unbounded {α β : Type} {depth : Depth} (h : depth.Admits 0)
    {R S : α → β → Prop} {nesting : α → Nat}
    (each : ∀ a b, R a b ↔ S a b ∧ depth.Admits (nesting a)) {as : List α} {bs : List β} :
    List.Forall₂ R as bs ↔ List.Forall₂ S as bs ∧ depth.Admits (deepest nesting as) := by
  have hR : R = fun a b => depth.Admits (nesting a) ∧ S a b := by
    funext a b
    exact propext ((each a b).trans and_comm)
  rw [hR, List.forall₂_and_left, Depth.admits_deepest h, and_comm]

section Steps

variable {α : Type} {depth : Depth} {read readFree : Node → Except Fault α}
  {nesting : Node → Nat}

/-- The same for a value that is the only one under its key. -/
theorem exists_only_iff_unbounded (h : depth.Admits 0)
    (each : ∀ node a, read node = .ok a ↔ readFree node = .ok a ∧ depth.Admits (nesting node))
    {nodes : List Node} {a : α} :
    (∃ node, nodes = [node] ∧ read node = .ok a) ↔
      (∃ node, nodes = [node] ∧ readFree node = .ok a) ∧
        depth.Admits (deepest nesting nodes) := by
  constructor
  · rintro ⟨node, rfl, ha⟩
    obtain ⟨ha, hnode⟩ := (each node a).mp ha
    exact ⟨⟨node, rfl, ha⟩, (Depth.admits_deepest h).mpr (by simpa using hnode)⟩
  · rintro ⟨⟨node, rfl, ha⟩, hnode⟩
    exact ⟨node, rfl, (each node a).mpr ⟨ha, (Depth.admits_deepest h).mp hnode node (by simp)⟩⟩

/-- The same for a value that may be missing. -/
theorem gives_iff_unbounded (h : depth.Admits 0)
    (each : ∀ node a, read node = .ok a ↔ readFree node = .ok a ∧ depth.Admits (nesting node))
    {default a : α} {nodes : List Node} :
    Gives read default nodes a ↔
      Gives readFree default nodes a ∧ depth.Admits (deepest nesting nodes) := by
  unfold Gives
  rw [exists_only_iff_unbounded h each, or_and_right]
  refine or_congr_left' fun _ => ?_
  constructor
  · rintro ⟨rfl, rfl⟩
    exact ⟨⟨rfl, rfl⟩, (Depth.admits_deepest h).mpr (by simp)⟩
  · exact And.left

/-- The same for a value that may be `null`. -/
theorem decodeNullable_iff_unbounded {shape : Shape α} (measured : shape.Measured)
    (h : depth.Admits 0) (node : Node) (a : Option α) :
    decodeNullable (shape.decode depth) node = .ok a ↔
      decodeNullable (shape.decode .unbounded) node = .ok a ∧
      depth.Admits (shape.nesting node) := by
  cases node with
  | null start => simp [decodeNullable, Shape.nesting_null, h]
  | _ =>
    simp only [decodeNullable, Except.map_eq_ok_iff, measured depth h]
    constructor
    · rintro ⟨b, ⟨hb, hnode⟩, rfl⟩
      exact ⟨⟨b, hb, rfl⟩, hnode⟩
    · rintro ⟨⟨b, hb, rfl⟩, hnode⟩
      exact ⟨b, ⟨hb, hnode⟩, rfl⟩

end Steps

/-- A member is kept under a bound exactly if it is kept without one and does not
nest too deeply. -/
theorem keeps_iff_unbounded {depth : Depth} (h : depth.Admits 0) (entry : String × Node)
    (kept : String × Value) :
    Keeps depth entry kept ↔ Keeps .unbounded entry kept ∧ depth.Admits entry.2.nesting := by
  rw [Keeps, Keeps, Node.keep_iff_unbounded h, and_assoc]

/-! ### Shapes made of shapes -/

section Composite

variable {α β : Type} {item : Shape α} {fields : Fields β}

theorem Shape.Measured.list (measured : item.Measured) : (Shape.list item).Measured := by
  intro depth _ node as
  rw [Shape.decode_list_iff, Shape.decode_list_iff]
  constructor
  · rintro ⟨start, items, inner, nodes, rfl, henter, hnodes, has⟩
    have hinner := Depth.admits_zero_of_enter henter
    obtain ⟨has, hnest⟩ := (forall₂_iff_unbounded hinner (measured inner hinner)).mp has
    refine ⟨⟨start, items, .unbounded, nodes, rfl, rfl, hnodes, has⟩, ?_⟩
    rw [Shape.nesting_list hnodes]
    exact (Depth.admits_succ_iff start).mpr ⟨inner, henter, hnest⟩
  · rintro ⟨⟨start, items, _, nodes, rfl, hfree, hnodes, has⟩, hnest⟩
    cases hfree
    rw [Shape.nesting_list hnodes] at hnest
    obtain ⟨inner, henter, hnest⟩ := (Depth.admits_succ_iff start).mp hnest
    have hinner := Depth.admits_zero_of_enter henter
    exact ⟨start, items, inner, nodes, rfl, henter, hnodes,
      (forall₂_iff_unbounded hinner (measured inner hinner)).mpr ⟨has, hnest⟩⟩

theorem Shape.Measured.table (measured : item.Measured) : (Shape.table item).Measured := by
  intro depth _ node t
  have each {inner : Depth} (hinner : inner.Admits 0) (entry : String × Node)
      (pair : String × α) :
      entry.1 = pair.1 ∧ item.decode inner entry.2 = .ok pair.2 ↔
        (entry.1 = pair.1 ∧ item.decode .unbounded entry.2 = .ok pair.2) ∧
          inner.Admits (item.nesting entry.2) := by
    rw [measured inner hinner, and_assoc]
  rw [Shape.decode_table_iff, Shape.decode_table_iff]
  constructor
  · rintro ⟨start, members, inner, entries, pairs, rfl, henter, hentries, hpairs, rfl⟩
    have hinner := Depth.admits_zero_of_enter henter
    obtain ⟨hpairs, hnest⟩ := (forall₂_iff_unbounded hinner (each hinner)).mp hpairs
    refine ⟨⟨start, members, .unbounded, entries, pairs, rfl, rfl, hentries, hpairs, rfl⟩, ?_⟩
    rw [Shape.nesting_table hentries]
    exact (Depth.admits_succ_iff start).mpr ⟨inner, henter, hnest⟩
  · rintro ⟨⟨start, members, _, entries, pairs, rfl, hfree, hentries, hpairs, rfl⟩, hnest⟩
    cases hfree
    rw [Shape.nesting_table hentries] at hnest
    obtain ⟨inner, henter, hnest⟩ := (Depth.admits_succ_iff start).mp hnest
    have hinner := Depth.admits_zero_of_enter henter
    exact ⟨start, members, inner, entries, pairs, rfl, henter, hentries,
      (forall₂_iff_unbounded hinner (each hinner)).mpr ⟨hpairs, hnest⟩, rfl⟩

theorem Fields.Measured.record (measured : fields.Measured) {name : String} {make : β → α}
    {parts : α → β} {made : ∀ a, make (parts a) = a} :
    (Shape.record name fields make parts made).Measured := by
  intro depth _ node a
  rw [Shape.decode_record_iff, Shape.decode_record_iff]
  constructor
  · rintro ⟨start, inner, values, henter, rfl, hnode⟩
    have hinner := Depth.admits_zero_of_enter henter
    obtain ⟨members, entries, left, rfl, hentries, hreads, hskip⟩ |
      ⟨items, nodes, rfl, hnodes, hreads⟩ := hnode
    · obtain ⟨hreads, hnest⟩ :=
        (measured.reads inner hinner (fun _ => 0) entries left values).mp
        ⟨hreads, fun _ _ => hinner⟩
      refine ⟨⟨start, .unbounded, values, rfl, rfl,
        .inl ⟨members, entries, left, rfl, hentries, hreads, hskip⟩⟩, ?_⟩
      rw [Shape.nesting_record hentries]
      exact (Depth.admits_succ_iff start).mpr ⟨inner, henter, hnest⟩
    · obtain ⟨hreads, hnest⟩ := (measured.inOrder inner hinner nodes values).mp hreads
      refine
        ⟨⟨start, .unbounded, values, rfl, rfl, .inr ⟨items, nodes, rfl, hnodes, hreads⟩⟩, ?_⟩
      rw [Shape.nesting_record_array hnodes]
      exact (Depth.admits_succ_iff start).mpr ⟨inner, henter, hnest⟩
  · rintro ⟨⟨start, _, values, hfree, rfl, hnode⟩, hnest⟩
    cases hfree
    obtain ⟨members, entries, left, rfl, hentries, hreads, hskip⟩ |
      ⟨items, nodes, rfl, hnodes, hreads⟩ := hnode
    · rw [Shape.nesting_record hentries] at hnest
      obtain ⟨inner, henter, hnest⟩ := (Depth.admits_succ_iff start).mp hnest
      have hinner := Depth.admits_zero_of_enter henter
      obtain ⟨hreads, -⟩ :=
        (measured.reads inner hinner (fun _ => 0) entries left values).mpr ⟨hreads, hnest⟩
      exact ⟨start, inner, values, henter, rfl,
        .inl ⟨members, entries, left, rfl, hentries, hreads, hskip⟩⟩
    · rw [Shape.nesting_record_array hnodes] at hnest
      obtain ⟨inner, henter, hnest⟩ := (Depth.admits_succ_iff start).mp hnest
      have hinner := Depth.admits_zero_of_enter henter
      exact ⟨start, inner, values, henter, rfl,
        .inr ⟨items, nodes, rfl, hnodes,
          (measured.inOrder inner hinner nodes values).mpr ⟨hreads, hnest⟩⟩⟩

theorem Fields.Measured.openRecord (measured : fields.Measured) {name : String}
    {make : β → Table String Value → α} {parts : α → β} {extras : α → Table String Value}
    {made : ∀ a, make (parts a) (extras a) = a} :
    (Shape.openRecord name fields make parts extras made).Measured := by
  intro depth _ node a
  rw [Shape.decode_openRecord_iff, Shape.decode_openRecord_iff]
  constructor
  · rintro ⟨start, members, inner, entries, values, left, kept, table, rfl, henter, hentries,
      hreads, hkeeps, htable, rfl⟩
    have hinner := Depth.admits_zero_of_enter henter
    obtain ⟨hkeeps, hleft⟩ :=
      (forall₂_iff_unbounded hinner (keeps_iff_unbounded hinner)).mp hkeeps
    obtain ⟨hreads, hnest⟩ := (measured.reads inner hinner Node.nesting entries left values).mp
      ⟨hreads, (Depth.admits_deepest hinner).mp hleft⟩
    refine ⟨⟨start, members, .unbounded, entries, values, left, kept, table, rfl, rfl,
      hentries, hreads, hkeeps, htable, rfl⟩, ?_⟩
    rw [Shape.nesting_openRecord hentries]
    exact (Depth.admits_succ_iff start).mpr ⟨inner, henter, hnest⟩
  · rintro ⟨⟨start, members, _, entries, values, left, kept, table, rfl, hfree, hentries,
      hreads, hkeeps, htable, rfl⟩, hnest⟩
    cases hfree
    rw [Shape.nesting_openRecord hentries] at hnest
    obtain ⟨inner, henter, hnest⟩ := (Depth.admits_succ_iff start).mp hnest
    have hinner := Depth.admits_zero_of_enter henter
    obtain ⟨hreads, hleft⟩ :=
      (measured.reads inner hinner Node.nesting entries left values).mpr ⟨hreads, hnest⟩
    have hkeeps := (forall₂_iff_unbounded hinner (keeps_iff_unbounded hinner)).mpr
      ⟨hkeeps, (Depth.admits_deepest hinner).mpr hleft⟩
    exact ⟨start, members, inner, entries, values, left, kept, table, rfl, henter, hentries,
      hreads, hkeeps, htable, rfl⟩

/-- Reading a choice enters an object with its name, and nothing in there. -/
theorem Shape.measured_choice {cases : List (String × α)} {name : α → String}
    {named : ∀ a, cases.lookup (name a) = some a} :
    (Shape.choice cases name named).Measured := by
  intro depth h node a
  simp only [Shape.decode, decodeChoice_iff]
  constructor
  · rintro (⟨spelling, name, rfl, hname, hcase⟩ |
      ⟨start, members, inner, name, place, rfl, henter, hentries, hcase⟩)
    · exact ⟨.inl ⟨spelling, name, rfl, hname, hcase⟩, h⟩
    · refine ⟨.inr ⟨start, members, .unbounded, name, place, rfl, rfl, hentries, hcase⟩, ?_⟩
      exact (Depth.admits_succ_iff start).mpr
        ⟨inner, henter, Depth.admits_zero_of_enter henter⟩
  · rintro ⟨⟨spelling, name, rfl, hname, hcase⟩ |
      ⟨start, members, _, name, place, rfl, -, hentries, hcase⟩, hnest⟩
    · exact .inl ⟨spelling, name, rfl, hname, hcase⟩
    · obtain ⟨inner, henter, -⟩ := (Depth.admits_succ_iff start).mp hnest
      exact .inr ⟨start, members, inner, name, place, rfl, henter, hentries, hcase⟩

end Composite

/-! ### Fields -/

section Fields

variable {α β : Type} {shape : Shape α} {rest : Fields β} {key : String}

theorem Fields.measured_done : Fields.done.Measured where
  reads depth h other entries left values := by
    simp only [Fields.Reads, Fields.nesting_done, Depth.admits_deepest h]
    constructor
    · rintro ⟨rfl, hleft⟩
      exact ⟨rfl, hleft⟩
    · rintro ⟨rfl, hleft⟩
      exact ⟨rfl, hleft⟩
  inOrder depth h nodes values := by
    simp [Fields.ReadsInOrder, Fields.nestingInOrder_done, h]

theorem Fields.Measured.required (hshape : shape.Measured) (hrest : rest.Measured) :
    (Fields.required key shape rest).Measured where
  reads depth h other entries left values := by
    simp only [Fields.Reads, Fields.nesting_required, Depth.admits_max, and_assoc,
      hrest.reads depth h other, exists_only_iff_unbounded h (hshape depth h)]
    tauto
  inOrder depth h nodes values := by
    simp only [Fields.ReadsInOrder, Fields.nestingInOrder_required, Depth.admits_max,
      hrest.inOrder depth h, exists_only_iff_unbounded h (hshape depth h)]
    tauto

theorem Fields.Measured.defaulted (hshape : shape.Measured) (hrest : rest.Measured)
    {default : α} : (Fields.defaulted key shape default rest).Measured where
  reads depth h other entries left values := by
    simp only [Fields.Reads, Fields.nesting_defaulted, Depth.admits_max, and_assoc,
      hrest.reads depth h other, gives_iff_unbounded h (hshape depth h)]
    tauto
  inOrder depth h nodes values := by
    simp only [Fields.ReadsInOrder, Fields.nestingInOrder_defaulted, Depth.admits_max,
      hrest.inOrder depth h, gives_iff_unbounded h (hshape depth h)]
    tauto

theorem Fields.Measured.optional (hshape : shape.Measured) (hrest : rest.Measured) :
    (Fields.optional key shape rest).Measured where
  reads depth h other entries left values := by
    simp only [Fields.Reads, Fields.nesting_optional, Depth.admits_max, and_assoc,
      hrest.reads depth h other, gives_iff_unbounded h (decodeNullable_iff_unbounded hshape h)]
    tauto
  inOrder depth h nodes values := by
    simp only [Fields.ReadsInOrder, Fields.nestingInOrder_optional, Depth.admits_max,
      hrest.inOrder depth h, gives_iff_unbounded h (decodeNullable_iff_unbounded hshape h)]
    tauto

theorem Fields.Measured.mark (hrest : rest.Measured) : (Fields.mark key rest).Measured where
  reads depth h other entries left values := by
    simp only [Fields.Reads, Fields.nesting_mark, and_assoc, hrest.reads depth h other]
  inOrder depth h nodes values := by
    simp only [Fields.ReadsInOrder, Fields.nestingInOrder_mark, hrest.inOrder depth h,
      and_assoc]

end Fields

/-! ### All shapes -/

mutual
/-- The nesting of what a shape reads says under which bounds it is read. -/
theorem Shape.measured : {α : Type} → (shape : Shape α) → shape.Measured
  | _, .list item => item.measured.list
  | _, .table item => item.measured.table
  | _, .record _ fields _ _ _ => fields.measured.record
  | _, .openRecord _ fields _ _ _ _ => fields.measured.openRecord
  | _, .choice _ _ _ => Shape.measured_choice
  | _, .text | _, .word32 | _, .word64 | _, .flag | _, .raw => by
    intro depth h node a
    cases node <;> simp [Shape.decode, Shape.nesting, h]

/-- The nesting of what fields read says under which bounds it is read. -/
theorem Fields.measured : {β : Type} → (fields : Fields β) → fields.Measured
  | _, .done => Fields.measured_done
  | _, .required _ shape rest => .required shape.measured rest.measured
  | _, .defaulted _ shape _ rest => .defaulted shape.measured rest.measured
  | _, .optional _ shape rest => .optional shape.measured rest.measured
  | _, .mark _ rest => .mark rest.measured
end

/-- **Readings under a bound.** A shape reads a node under a bound on nesting exactly if it
reads it, as the same value, without a bound, and what it reads does not nest too deeply. -/
theorem Shape.decode_iff_unbounded {α : Type} {depth : Depth} (h : depth.Admits 0)
    (shape : Shape α) (node : Node) (a : α) :
    shape.decode depth node = .ok a ↔
      shape.decode .unbounded node = .ok a ∧ depth.Admits (shape.nesting node) :=
  shape.measured depth h node a

end Wire

end ApiSurface
