import ApiSurface.Proofs.Merging.MergedSymbols

/-!
# What merging leaves of the statements in a file

The availability of a symbol stands in its file as a JSON array. As long as nothing is
appended to it, the array stays as it stands. If something is, all of it is read and written
anew, so each item becomes what the library writes for the statement that it makes: members
that no statement has are dropped, and values that are assumed if they are missing are
written out. The items keep their number and their order either way, and what is appended
comes after them.

## Main results

* `Wire.Shape.ofValue_list_iff`, `Wire.Shape.toValue_list`: lists as JSON arrays.
* `ItemsKept`, `ItemsKept.of_extended`: what becomes of the items of an array.
* `consolidate_itemsKept`: the same for all symbols of all merged graphs.
-/

namespace ApiSurface

open Json Wire
open Availability (novel)

/-! ### Lists as arrays -/

namespace Wire

variable {α : Type} {item : Shape α} {values : List Value} {as : List α}

/-- A list is read from an array of which every item is read. -/
theorem Shape.ofValue_list_iff : (Shape.list item).ofValue (.array values) = .ok as ↔
    List.Forall₂ (fun value a => item.ofValue value = .ok a) values as := by
  rw [Shape.ofValue, Except.mapError_eq_ok_iff, Shape.decode_list_iff, Value.node]
  constructor
  · rintro ⟨_, _, _, nodes, heq, henter, hnodes, hread⟩
    cases heq
    cases henter
    rw [nodes_itemNodes, Option.some.injEq] at hnodes
    subst hnodes
    rw [List.forall₂_map_left_iff] at hread
    exact hread.imp fun _ _ => Except.mapError_eq_ok_iff.mpr
  · intro hread
    refine ⟨0, _, .unbounded, _, rfl, rfl, nodes_itemNodes values, ?_⟩
    rw [List.forall₂_map_left_iff]
    exact hread.imp fun _ _ => Except.mapError_eq_ok_iff.mp

/-- A list is written as the array of what its members are written as. -/
theorem Shape.toValue_list (item : Shape α) (as : List α) :
    (Shape.list item).toValue as = .array (as.map item.toValue) := by
  rw [Shape.toValue, Shape.encode, Value.sorted, sortedItems_eq_map, List.map_map]
  rfl

end Wire

/-! ### One symbol -/

/-- Whether a value stands as the library writes statements. -/
def IsWritten (value : Value) : Prop :=
  ∃ statement, value = AvailabilityItem.shape.toValue statement

/-- Whether a value is what the library writes for the statement that another one makes. -/
def IsRewritten (value value' : Value) : Prop :=
  ∃ statement, AvailabilityItem.shape.ofValue value = .ok statement ∧
    AvailabilityItem.shape.toValue statement = value'

/-- A value that stands as the library writes it is written as it stands. -/
theorem IsRewritten.eq_iff {value value' : Value} (h : IsRewritten value value') :
    value = value' ↔ IsWritten value := by
  obtain ⟨statement, hread, rfl⟩ := h
  constructor
  · rintro rfl
    exact ⟨statement, rfl⟩
  · rintro ⟨statement', rfl⟩
    have hplain : AvailabilityItem.shape.IsPlain := Availability.shape_isPlain
    rw [Shape.ofValue_toValue _ hplain, Except.ok.injEq] at hread
    rw [hread]

/-- What becomes of the items of an array to which others have been appended. -/
structure ItemsKept (items kept appended : List Value) : Prop where
  /-- There are as many items as before. -/
  length : kept.length = items.length
  /-- If nothing has been appended, the items are those from before. -/
  untouched : appended = [] → kept = items
  /-- Else each stands where it stood, as it is written for the statement that it makes. -/
  rewritten : appended ≠ [] → List.Forall₂ IsRewritten items kept
  /-- The items are those from before exactly if nothing has been appended, or if they
  already stood as the library writes them. -/
  kept_iff : kept = items ↔ appended = [] ∨ ∀ item ∈ items, IsWritten item
  /-- What has been appended stands as the library writes it. -/
  appended : ∀ value ∈ appended, IsWritten value

/-- Nothing has become of items to which nothing has been appended. -/
theorem ItemsKept.refl (items : List Value) : ItemsKept items items [] where
  length := rfl
  untouched := fun _ => rfl
  rewritten := fun h => absurd rfl h
  kept_iff := iff_of_true rfl (.inl rfl)
  appended := fun _ hmem => absurd hmem List.not_mem_nil

/-- Items that make some statements, written together with further statements. -/
theorem ItemsKept.of_statements {items : List Value} {known more : Availability}
    (hknown : List.Forall₂ (fun item s => AvailabilityItem.shape.ofValue item = .ok s)
      items known)
    (hmore : more ≠ []) :
    ItemsKept items (known.map AvailabilityItem.shape.toValue)
      (more.map AvailabilityItem.shape.toValue) := by
  have hrewritten :
      List.Forall₂ IsRewritten items (known.map AvailabilityItem.shape.toValue) := by
    rw [List.forall₂_map_right_iff]
    exact hknown.imp fun _ s hs => ⟨s, hs, rfl⟩
  have happended : more.map AvailabilityItem.shape.toValue ≠ [] := by
    rwa [ne_eq, List.map_eq_nil_iff]
  constructor
  case length => exact hrewritten.length_eq.symm
  case untouched => exact fun hnil => absurd hnil happended
  case rewritten => exact fun _ => hrewritten
  case kept_iff =>
    have hsame (value value' : Value) (h : IsRewritten value value') :
        Eq value value' ↔ IsWritten value := h.eq_iff
    rw [or_iff_right happended, ← Except.forall₂_iff_forall hsame hrewritten,
      List.forall₂_eq_eq_eq, eq_comm]
  case appended => exact List.forall_mem_map.mpr fun s _ => ⟨s, rfl⟩

/-- A symbol that has been extended has the items from before, and others after them. -/
theorem ItemsKept.of_extended {base merged : Symbol} {offered : Availability}
    (h : base.Extended offered merged) {items : List Value}
    (hitems : base.availabilityValue = some (.array items)) :
    ∃ kept appended, merged.availabilityValue = some (.array (kept ++ appended)) ∧
      ItemsKept items kept appended := by
  have hsame : merged = base → ∃ kept appended,
      merged.availabilityValue = some (.array (kept ++ appended)) ∧
      ItemsKept items kept appended := by
    rintro rfl
    exact ⟨items, [], by rw [hitems, List.append_nil], .refl items⟩
  cases h with
  | none _ => exact hsame rfl
  | @some known hknown =>
    by_cases hnovel : novel known offered = []
    · exact hsame (by rw [Symbol.extendBy, if_pos hnovel])
    · refine ⟨known.map AvailabilityItem.shape.toValue, _, ?_, .of_statements ?_ hnovel⟩
      · rw [Symbol.extendBy, if_neg hnovel, Symbol.availabilityValue, Symbol.setMixin,
          Table.get?_insert_self, ← List.map_append]
        exact congrArg some (Shape.toValue_list _ _)
      · rw [Symbol.statements, Symbol.availability, Symbol.mixin?,
          show base.mixins.get? _ = _ from hitems, Except.map_eq_ok_iff] at hknown
        obtain ⟨_, hpayload, rfl⟩ := hknown
        obtain ⟨known, hread, rfl⟩ := Except.map_eq_ok_iff.mp hpayload
        exact Shape.ofValue_list_iff.mp hread

/-! ### Merged graphs -/

/-- **Items stay in their places.** Of each symbol of a merged graph, the items of its
availability in the base come first, in their order. -/
theorem consolidate_itemsKept {graphs : List UniqueGraph} {assumptions : Assumptions}
    {merged : List MergedGraph} {tally : Tally}
    (h : (consolidate graphs assumptions).result = .ok (merged, tally)) :
    ∀ m ∈ merged, ∃ base ∈ graphs, m.basePath = base.path ∧
      ∀ precise symbol, m.symbols.get? precise = some symbol →
        ∃ original, base.symbols.get? precise = some original ∧
          ∀ items, original.availabilityValue = some (.array items) →
            ∃ kept appended, symbol.availabilityValue = some (.array (kept ++ appended)) ∧
              ItemsKept items kept appended := by
  intro m hm
  obtain ⟨group, t, hgroup, hmerge⟩ := exists_group_of_mem h hm
  obtain ⟨hextends, hmerged⟩ := Group.merge_eq_ok hmerge
  have hbase : group.base ∈ group.members := List.mem_cons_self
  refine ⟨group.base, ((Table.mem_members_iff hgroup).mp hbase).1, by rw [hmerged]; rfl, ?_⟩
  intro precise symbol hsymbol
  obtain ⟨_, original, -, horiginal, hextended⟩ := hextends.exists_of_get? hsymbol
  exact ⟨original, horiginal, fun _ => ItemsKept.of_extended hextended⟩

/-- A graph with one symbol whose availability is given as it stands. -/
def graphWithItems (path : String) (items : List Value) : UniqueGraph where
  path := .ofText path
  name := .main "M"
  metadata := ⟨⟨1, 0, 0, none, none⟩, "g"⟩
  module := ⟨"M", .unknown, none, false⟩
  symbols :=
    Table.empty.insert "s" ⟨⟨"s", "swift"⟩, ⟨"func", "Function"⟩, [], .untitled, "public",
      Table.empty.insert "availability" (.array items)⟩
  relationships := []
  collapsed := 0

/-- A statement with a member that no statement has. -/
def annotatedItem : Value := .object [("domain", .text "iOS"), ("note", .text "beta")]

/-- Two graphs of a module: the base makes a statement with a member that no statement has,
and the overlay makes one about another domain. -/
def graphsWithAnnotatedItem : List UniqueGraph :=
  [graphWithItems "a/M.symbols.json" [annotatedItem],
    graphAvailableFor "b/M.symbols.json" "macOS"]

/-- The first item of the availability of a symbol, as it is written. -/
def Symbol.firstItem? (s : Symbol) : Option String :=
  match s.availabilityValue with
  | some (.array (item :: _)) => some item.render
  | _ => none

/-- Graphs of which one makes an annotated statement are merged into one graph, in which the
annotation is missing. -/
theorem consolidate_annotated : ∃ m tally symbol,
    (consolidate graphsWithAnnotatedItem .empty).result = .ok ([m], tally) ∧
    m.basePath = .ofText "a/M.symbols.json" ∧ m.symbols.get? "s" = some symbol ∧
    symbol.firstItem? = some "\x7b\"domain\":\"iOS\"\x7d" := by
  have hview :
      (consolidate graphsWithAnnotatedItem .empty).result.toOption.map (fun r =>
          r.1.map fun m => (m.basePath.bytes, (m.symbols.get? "s").map Symbol.firstItem?)) =
        some [(Text.bytes "a/M.symbols.json",
          some (some "\x7b\"domain\":\"iOS\"\x7d"))] := by
    decide +kernel
  cases h : (consolidate graphsWithAnnotatedItem .empty).result with
  | error fault => rw [h] at hview; cases hview
  | ok r =>
    obtain ⟨merged, tally⟩ := r
    rw [h, Except.toOption, Option.map_some, Option.some.injEq,
      List.map_eq_singleton_iff] at hview
    obtain ⟨m, rfl, hm⟩ := hview
    obtain ⟨hpath, hsymbol⟩ := Prod.mk.inj hm
    obtain ⟨symbol, hsymbol, hfirst⟩ := Option.map_eq_some_iff.mp hsymbol
    exact ⟨m, tally, symbol, rfl, congrArg Path.mk hpath, hsymbol, hfirst⟩

/-- The items of an annotated statement and of one about another domain keep their places. -/
theorem consolidate_itemsKept_annotated : ∃ m tally,
    (consolidate graphsWithAnnotatedItem .empty).result = .ok ([m], tally) ∧
    ∃ base ∈ graphsWithAnnotatedItem, m.basePath = base.path ∧
      ∀ precise symbol, m.symbols.get? precise = some symbol →
        ∃ original, base.symbols.get? precise = some original ∧
          ∀ items, original.availabilityValue = some (.array items) →
            ∃ kept appended, symbol.availabilityValue = some (.array (kept ++ appended)) ∧
              ItemsKept items kept appended := by
  obtain ⟨m, tally, -, h, -⟩ := consolidate_annotated
  exact ⟨m, tally, h, consolidate_itemsKept h m (List.mem_singleton_self m)⟩

/-- The items of the base do not always stay as they stand. -/
theorem not_consolidate_items_prefix : ¬ ∀ graphs assumptions merged tally,
    (consolidate graphs assumptions).result = .ok (merged, tally) →
    ∀ m ∈ merged, ∀ base ∈ graphs, m.basePath = base.path →
    ∀ precise symbol original items, m.symbols.get? precise = some symbol →
      base.symbols.get? precise = some original →
      original.availabilityValue = some (.array items) →
      ∃ appended, symbol.availabilityValue = some (.array (items ++ appended)) := by
  intro hprefix
  obtain ⟨m, tally, symbol, h, hpath, hsymbol, hfirst⟩ := consolidate_annotated
  obtain ⟨appended, hitems⟩ := hprefix _ _ _ _ h m (List.mem_singleton_self m)
    (graphWithItems "a/M.symbols.json" [annotatedItem]) List.mem_cons_self hpath "s" symbol _
    [annotatedItem] hsymbol rfl rfl
  rw [Symbol.firstItem?, hitems, List.singleton_append, Option.some.injEq] at hfirst
  exact absurd hfirst (by decide +kernel)

end ApiSurface
