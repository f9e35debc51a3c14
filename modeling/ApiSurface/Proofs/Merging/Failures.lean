import ApiSurface.Proofs.Merging.MergedSymbols

/-!
# Why graphs cannot be consolidated

Consolidation fails if a path is given twice, if an overlay has nothing in common with its
base, or if the availability of a symbol cannot be read where it is needed. It is needed of
a symbol that an overlay offers to the base; of a symbol of the base that any availability
is offered to, be it an empty one; and of all symbols of the base if something is assumed.
What is added to a symbol on the way does not change whether it can be read, so all this can
be told from the graphs as they are given.

## Main definitions

* `SymbolClash`, `OverlayClash`: why an overlay cannot be applied to a base.
* `Obstacle`: why graphs cannot be consolidated.

## Main results

* `applyOverlay_failsFor`, `applyAssumed_failsFor`, `Group.merge_failsFor`: the steps.
* `consolidate_error_iff`: consolidation fails exactly if there is an obstacle.
-/

namespace ApiSurface

open Std

/-! ### Unreadable symbols -/

/-- Whether the availability of a symbol of the graph with a path cannot be read, and this
is the fault. -/
def Symbol.Unreadable (s : Symbol) (path : Path) (fault : MergeFault) : Prop :=
  ∃ cause, s.availability = .error cause ∧ fault = .unreadableAvailability s.precise path cause

/-- Whether there is a symbol with an identifier that cannot be read. -/
def UnreadableAt (symbols : Table String Symbol) (precise : String) (path : Path)
    (fault : MergeFault) : Prop :=
  ∃ s, symbols.get? precise = some s ∧ s.Unreadable path fault

namespace Symbol

variable {s s' : Symbol} {path : Path} {fault : MergeFault}

/-- A symbol that can be read is not unreadable. -/
theorem not_unreadable_of_statements {known : Availability} (h : s.statements = .ok known) :
    ¬ s.Unreadable path fault := by
  rintro ⟨cause, hcause, -⟩
  rw [statements, hcause] at h
  cases h

/-- Extending a symbol does not change whether it can be read. -/
theorem Extended.unreadable_iff {offered : Availability} (h : s.Extended offered s') :
    s'.Unreadable path fault ↔ s.Unreadable path fault := by
  cases h with
  | none => rfl
  | some hknown =>
    refine iff_of_false ?_ (not_unreadable_of_statements hknown)
    exact not_unreadable_of_statements (statements_extendBy hknown offered)

/-- Reading the availability of a symbol fails if it is unreadable. -/
theorem readAvailability_failsFor (s : Symbol) (path : Path) :
    (s.readAvailability path).FailsFor (s.Unreadable path) := by
  rw [readAvailability]
  cases havailability : s.availability with
  | error cause => exact .of_error ⟨cause, havailability, rfl⟩
  | ok payload =>
    refine .of_ok fun fault hfault => ?_
    obtain ⟨cause, hcause, -⟩ := hfault
    rw [havailability] at hcause
    cases hcause

/-- Extending the availability of a symbol fails if it is unreadable. -/
theorem extendAvailability_failsFor (s : Symbol) (path : Path) (offered : Availability) :
    (s.extendAvailability path offered).FailsFor (s.Unreadable path) := by
  rw [extendAvailability]
  refine (s.readAvailability_failsFor path).bind_pure fun payload => ?_
  dsimp only
  split <;> exact ⟨_, rfl⟩

end Symbol

/-- Extending the symbols of a table does not change which of them can be read. -/
theorem Extends.unreadableAt_iff {offered : String → Except Json.Cause Availability}
    {symbols symbols' : Table String Symbol} (h : Extends offered symbols symbols')
    {precise : String} {path : Path} {fault : MergeFault} :
    UnreadableAt symbols' precise path fault ↔ UnreadableAt symbols precise path fault := by
  obtain ⟨hnone, hsome⟩ := h precise
  rw [UnreadableAt, UnreadableAt]
  cases hs : symbols.get? precise with
  | none => simp [hnone hs]
  | some s =>
    obtain ⟨_, s', -, hs', hextended⟩ := hsome s hs
    simp [hs', hextended.unreadable_iff]

/-! ### Overlays -/

/-- Why a symbol that an overlay offers under an identifier cannot be added to the base. -/
inductive SymbolClash (base overlay : Path) (symbols : Table String Symbol) (precise : String)
    (offering : Symbol) : MergeFault → Prop
  /-- The base has a symbol with the identifier, and the one that is offered cannot be read. -/
  | offering {fault : MergeFault} :
      precise ∈ symbols.keys → offering.Unreadable overlay fault →
    SymbolClash base overlay symbols precise offering fault
  /-- The symbol that is offered has an availability, and the one of the
  base cannot be read. -/
  | base {fault : MergeFault} : offering.hasMixin Availability.mixin.key = true →
    UnreadableAt symbols precise base fault →
    SymbolClash base overlay symbols precise offering fault

/-- Whether there are symbols in each of two tables, but none with an identifier in common. -/
structure SharesNone (symbols symbols' : Table String Symbol) : Prop where
  left : symbols.keys ≠ []
  right : symbols'.keys ≠ []
  disjoint : ∀ precise ∈ symbols'.keys, precise ∉ symbols.keys

/-- Why an overlay cannot be applied to the symbols of a base. -/
inductive OverlayClash (base : Path) (symbols : Table String Symbol) (overlay : UniqueGraph) :
    MergeFault → Prop
  /-- Both have symbols, but none in common. -/
  | disjoint : SharesNone symbols overlay.symbols →
    OverlayClash base symbols overlay (.disjointOverlay overlay.path base)
  /-- A symbol of the overlay cannot be added. -/
  | symbol {precise : String} {offering : Symbol} {fault : MergeFault} :
    overlay.symbols.get? precise = some offering →
    SymbolClash base overlay.path symbols precise offering fault →
    OverlayClash base symbols overlay fault

section Overlays

variable {base overlay : Path} {symbols symbols' : Table String Symbol} {precise : String}
  {offering : Symbol} {fault : MergeFault} {offered : String → Except Json.Cause Availability}

/-- A symbol clashes with the base or with what is offered to it. -/
theorem symbolClash_iff : SymbolClash base overlay symbols precise offering fault ↔
    precise ∈ symbols.keys ∧ offering.Unreadable overlay fault ∨
      offering.hasMixin Availability.mixin.key = true ∧
      UnreadableAt symbols precise base fault := by
  constructor
  · rintro (⟨hkey, hunreadable⟩ | ⟨hpresent, hunreadable⟩)
    · exact .inl ⟨hkey, hunreadable⟩
    · exact .inr ⟨hpresent, hunreadable⟩
  · rintro (⟨hkey, hunreadable⟩ | ⟨hpresent, hunreadable⟩)
    · exact .offering hkey hunreadable
    · exact .base hpresent hunreadable

/-- Extending the symbols of a base does not change what can be added to it. -/
theorem Extends.symbolClash_iff (h : Extends offered symbols symbols') :
    SymbolClash base overlay symbols' precise offering fault ↔
      SymbolClash base overlay symbols precise offering fault := by
  rw [ApiSurface.symbolClash_iff, ApiSurface.symbolClash_iff, h.keys_eq, h.unreadableAt_iff]

/-- Extending the symbols of a base does not change whether an overlay can be applied to it. -/
theorem Extends.overlayClash_iff (h : Extends offered symbols symbols') {graph : UniqueGraph} :
    OverlayClash base symbols' graph fault ↔ OverlayClash base symbols graph fault := by
  constructor
  · rintro (⟨hleft, hright, hdisjoint⟩ | ⟨hoffering, hclash⟩)
    · rw [h.keys_eq] at hleft hdisjoint
      exact .disjoint ⟨hleft, hright, hdisjoint⟩
    · exact .symbol hoffering (h.symbolClash_iff.mp hclash)
  · rintro (⟨hleft, hright, hdisjoint⟩ | ⟨hoffering, hclash⟩)
    · rw [← h.keys_eq] at hleft hdisjoint
      exact .disjoint ⟨hleft, hright, hdisjoint⟩
    · exact .symbol hoffering (h.symbolClash_iff.mpr hclash)

/-- A symbol without availability has no payload of that kind. -/
theorem Symbol.hasMixin_eq_false_of_availability {s : Symbol} (h : s.availability = .ok none) :
    s.hasMixin Availability.mixin.key = false := by
  rw [availability, mixin?] at h
  rw [hasMixin, Table.contains]
  cases hpayload : s.mixins.get? Availability.mixin.key with
  | none => rfl
  | some payload =>
    simp only [hpayload, Except.map_eq_ok_iff] at h
    obtain ⟨_, -, h⟩ := h
    cases h

/-- A symbol with availability has a payload of that kind. -/
theorem Symbol.hasMixin_eq_true_of_availability {s : Symbol} {items : Availability}
    (h : s.availability = .ok (some items)) : s.hasMixin Availability.mixin.key = true := by
  rw [availability, mixin?] at h
  rw [hasMixin, Table.contains]
  cases hpayload : s.mixins.get? Availability.mixin.key with
  | none => simp [hpayload] at h
  | some payload => rfl

/-- Adding a symbol of an overlay fails if it clashes. -/
theorem applySymbol_failsFor (base overlay : Path) (state : Overlaid)
    (entry : String × Symbol) :
    (applySymbol base overlay state entry).FailsFor
      (SymbolClash base overlay state.symbols entry.1 entry.2) := by
  obtain ⟨precise, offering⟩ := entry
  cases hsymbol : state.symbols.get? precise with
  | none =>
    simp only [applySymbol, hsymbol]
    refine .of_ok fun fault hclash => ?_
    rcases hclash with ⟨hkey, -⟩ | ⟨-, s, hs, -⟩
    · exact Table.get?_eq_none_iff.mp hsymbol hkey
    · rw [hsymbol] at hs
      cases hs
  | some symbol =>
    simp only [applySymbol, hsymbol]
    refine ((offering.readAvailability_failsFor overlay).bind
      (Q := fun fault => offering.hasMixin Availability.mixin.key = true ∧
        symbol.Unreadable base fault)
      fun payload hpayload => ?_).congr fun fault => ?_
    · have havailability : offering.availability = .ok payload :=
        Except.mapError_eq_ok_iff.mp hpayload
      cases payload with
      | none =>
        rw [Symbol.hasMixin_eq_false_of_availability havailability]
        exact .of_ok fun _ h => Bool.false_ne_true h.1
      | some offered =>
        rw [Symbol.hasMixin_eq_true_of_availability havailability]
        refine ((symbol.extendAvailability_failsFor base offered).bind_pure fun _ =>
          ⟨_, rfl⟩).congr ?_
        intro fault
        rw [and_iff_right rfl]
    · rw [symbolClash_iff, Table.mem_keys_iff, UnreadableAt, hsymbol]
      simp

/-- Adding a symbol of an overlay counts it if the base has its identifier. -/
theorem matched_applySymbol {state state' : Overlaid} {entry : String × Symbol}
    (h : applySymbol base overlay state entry = .ok state') :
    state'.matched = state.matched + if entry.1 ∈ state.symbols.keys then 1 else 0 := by
  cases hsymbol : state.symbols.get? entry.1 with
  | none =>
    rw [if_neg (Table.get?_eq_none_iff.mp hsymbol)]
    simp only [applySymbol, hsymbol, Except.pure_eq_ok_iff] at h
    subst h
    rfl
  | some symbol =>
    rw [if_pos (Table.mem_keys_iff.mpr ⟨symbol, hsymbol⟩)]
    simp only [applySymbol, hsymbol, Except.bind_eq_ok_iff] at h
    obtain ⟨payload, -, h⟩ := h
    cases payload with
    | none =>
      cases h
      rfl
    | some offered =>
      simp only [Except.bind_eq_ok_iff, Except.pure_eq_ok_iff] at h
      obtain ⟨_, -, rfl⟩ := h
      rfl

/-- Adding the symbols of an overlay counts those with an identifier of the base. -/
theorem matched_foldlM {entries : List (String × Symbol)} {state state' : Overlaid}
    (h : entries.foldlM (applySymbol base overlay) state = .ok state') :
    state'.matched = state.matched + entries.countP fun entry => entry.1 ∈
      state.symbols.keys := by
  induction entries generalizing state with
  | nil =>
    rw [List.foldlM_nil, Except.pure_eq_ok_iff] at h
    rw [h, List.countP_nil, Nat.add_zero]
  | cons entry entries ih =>
    rw [List.foldlM_cons, Except.bind_eq_ok_iff] at h
    obtain ⟨mid, hmid, hrest⟩ := h
    rw [ih hrest, matched_applySymbol hmid, (applySymbol_extends hmid).keys_eq,
      List.countP_cons, Nat.add_assoc, Nat.add_comm (List.countP _ _)]
    simp only [decide_eq_true_eq]

/-- No identifier is shared if none is counted. -/
theorem sharesNone_iff {symbols symbols' : Table String Symbol} : SharesNone symbols symbols' ↔
    (symbols'.entries.countP fun entry => entry.1 ∈ symbols.keys) = 0 ∧ symbols'.size ≠ 0 ∧
      symbols.size ≠ 0 := by
  have hsize (t : Table String Symbol) : t.size ≠ 0 ↔ t.keys ≠ [] := by
    simp [Table.size, Table.keys]
  have hcount : (symbols'.entries.countP fun entry => entry.1 ∈ symbols.keys) = 0 ↔
      ∀ precise ∈ symbols'.keys, precise ∉ symbols.keys := by
    rw [List.countP_eq_zero, show symbols'.keys = symbols'.entries.map Prod.fst from rfl,
      List.forall_mem_map]
    simp only [decide_eq_true_eq]
  rw [hsize, hsize, hcount]
  exact ⟨fun h => ⟨h.disjoint, h.right, h.left⟩, fun h => ⟨h.2.2, h.2.1, h.1⟩⟩

/-- Applying an overlay fails if it clashes with the base. -/
theorem applyOverlay_failsFor (base : Path) (symbols : Table String Symbol)
    (graph : UniqueGraph) :
    (applyOverlay base symbols graph).FailsFor (OverlayClash base symbols graph) := by
  have hfold := Except.FailsFor.foldlM (applySymbol_failsFor base graph.path)
    (fun _ _ _ h _ _ => (applySymbol_extends h).symbolClash_iff) graph.symbols.entries
      ⟨symbols, 0, 0, 0⟩
  refine (hfold.bind (Q := fun fault =>
    SharesNone symbols graph.symbols ∧ fault = .disjointOverlay graph.path base)
    fun overlaid hoverlaid => ?_).congr fun fault => ?_
  · have hmatched :
        overlaid.matched = graph.symbols.entries.countP fun entry =>
          entry.1 ∈ symbols.keys := by
      rw [matched_foldlM hoverlaid, Nat.zero_add]
    have hdisjoint :
        (overlaid.matched = 0 && graph.symbols.size != 0 && symbols.size != 0) = true ↔
        SharesNone symbols graph.symbols := by
      rw [sharesNone_iff, hmatched, Bool.and_eq_true, Bool.and_eq_true, decide_eq_true_eq,
        bne_iff_ne, bne_iff_ne, and_assoc]
    split
    · next hguard => exact .of_error ⟨hdisjoint.mp hguard, rfl⟩
    · next hguard => exact .of_ok fun fault hfault => hguard (hdisjoint.mpr hfault.1)
  · constructor
    · rintro (⟨⟨precise, offering⟩, hentry, hclash⟩ | ⟨hshares, rfl⟩)
      · exact .symbol (Table.mem_entries_iff.mp hentry) hclash
      · exact .disjoint hshares
    · rintro (hshares | ⟨hoffering, hclash⟩)
      · exact .inr ⟨hshares, rfl⟩
      · exact .inl ⟨_, Table.mem_entries_iff.mpr hoffering, hclash⟩

end Overlays

/-! ### Assumptions -/

/-- Adding what is assumed to the symbols of a base fails if anything is assumed and one of
the symbols cannot be read. -/
theorem applyAssumed_failsFor (base : Path) (symbols : Table String Symbol)
    (assumed : List AssumedAvailability) :
    (applyAssumed base symbols assumed).FailsFor fun fault =>
      assumed ≠ [] ∧ ∃ precise, UnreadableAt symbols precise base fault := by
  rw [applyAssumed]
  cases assumed with
  | nil => exact .of_ok fun _ h => h.1 rfl
  | cons first rest =>
    have heach (state : Table String Symbol × Nat) (entry : String × Symbol) :
        (assumeFor base ((first :: rest).map AssumedAvailability.item) state entry).FailsFor
          (entry.2.Unreadable base) :=
      (entry.2.extendAvailability_failsFor base _).bind_pure fun _ => ⟨_, rfl⟩
    rw [List.isEmpty_cons, if_neg Bool.false_ne_true]
    refine (Except.FailsFor.foldlM heach (fun _ _ _ _ _ _ => Iff.rfl) _ _).congr
      fun fault => ?_
    rw [and_iff_right (List.cons_ne_nil _ _)]
    simp only [UnreadableAt, Prod.exists, Table.mem_entries_iff]

namespace MergedGraph

/-- Adding overlays fails if one of them clashes with the graph. -/
theorem addOverlays_failsFor (graph : MergedGraph) (overlays : List UniqueGraph) :
    (graph.addOverlays overlays).result.FailsFor fun fault =>
      ∃ overlay ∈ overlays, OverlayClash graph.basePath graph.symbols overlay fault := by
  induction overlays generalizing graph with
  | nil => exact .of_ok fun _ ⟨_, hmem, _⟩ => List.not_mem_nil hmem
  | cons overlay overlays ih =>
    simp only [addOverlays, Traced.result_bind, Traced.result_ofExcept, Traced.result_note,
      Traced.result_pure, Except.ok_bind]
    have hlater :
        ∀ overlaid, applyOverlay graph.basePath graph.symbols overlay = .ok overlaid →
        ({ graph with
          symbols := overlaid.symbols
          overlayPaths :=
            graph.overlayPaths ++ [overlay.path] }.addOverlays overlays).result.FailsFor
          fun fault =>
            ∃ later ∈ overlays, OverlayClash graph.basePath graph.symbols later fault := by
      intro overlaid hoverlaid
      refine (ih _).congr fun fault => ?_
      simp only [(applyOverlay_extends hoverlaid).overlayClash_iff]
    refine ((applyOverlay_failsFor _ _ _).bind fun overlaid hoverlaid =>
      (hlater overlaid hoverlaid).bind_pure fun _ => ⟨_, rfl⟩).congr fun fault => ?_
    rw [List.exists_mem_cons_iff]

/-- Adding what is assumed fails if anything is assumed for the author of the graph, and one
of its symbols cannot be read. -/
theorem addAssumed_failsFor (graph : MergedGraph) (assumptions : Assumptions) :
    (graph.addAssumed assumptions).FailsFor fun fault =>
      assumptions.statements graph.author ≠ [] ∧
        ∃ precise, UnreadableAt graph.symbols precise graph.basePath fault := by
  rw [addAssumed, Assumptions.statements]
  cases assumptions.get? graph.author with
  | none => exact .of_ok fun _ h => h.1 rfl
  | some assumed =>
    refine ((applyAssumed_failsFor _ _ assumed).map _).congr fun fault => ?_
    rw [Option.getD_some, Ne, Ne, List.map_eq_nil_iff]

end MergedGraph

/-- Why a group cannot be merged. -/
def Group.Clash (group : Group) (role : Role) (assumptions : Assumptions)
    (fault : MergeFault) : Prop :=
  (∃ overlay ∈ group.overlays, OverlayClash group.base.path group.base.symbols overlay fault) ∨
    assumptions.statements (group.base.asMerged role).author ≠ [] ∧
      ∃ precise, UnreadableAt group.base.symbols precise group.base.path fault

/-- Merging a group fails if it clashes. -/
theorem Group.merge_failsFor (group : Group) (role : Role) (assumptions : Assumptions) :
    (group.merge role assumptions).result.FailsFor (group.Clash role assumptions) := by
  simp only [Group.merge, Traced.result_bind, Traced.result_ofExcept, Traced.result_pure]
  refine (MergedGraph.addOverlays_failsFor _ _).bind fun overlaid hoverlaid => ?_
  obtain ⟨hextends, hgraph⟩ := MergedGraph.addOverlays_eq_ok hoverlaid
  refine ((MergedGraph.addAssumed_failsFor _ assumptions).bind_pure fun _ => ⟨_, rfl⟩).congr
    fun fault => ?_
  rw [hgraph]
  simp only [hextends.unreadableAt_iff]
  rfl

/-! ### All graphs -/

/-- A path that is found to be repeated is among those before it, or was seen before them. -/
theorem firstRepeated_eq_some {seen : Table Path Unit} {paths : List Path} {path : Path}
    (h : firstRepeated seen paths = some path) :
    ∃ before after, paths = before ++ path :: after ∧
      (seen.contains path = true ∨ ∃ earlier ∈ before, compare path earlier = .eq) := by
  induction paths generalizing seen with
  | nil => cases h
  | cons first paths ih =>
    rw [firstRepeated] at h
    split at h
    · next hseen =>
      cases h
      exact ⟨[], paths, rfl, .inl hseen⟩
    · obtain ⟨before, after, rfl, hseen⟩ := ih h
      refine ⟨first :: before, after, rfl, ?_⟩
      rw [contains_insert, Bool.or_eq_true, beq_iff_eq] at hseen
      rcases hseen with (hfirst | hseen) | ⟨earlier, hearlier, heq⟩
      · exact .inr ⟨first, List.mem_cons_self, hfirst⟩
      · exact .inl hseen
      · exact .inr ⟨earlier, List.mem_cons_of_mem _ hearlier, heq⟩

/-- The module that the symbols of a graph were authored in. -/
def UniqueGraph.author (graph : UniqueGraph) : String :=
  graph.role.extending?.getD graph.module.name

/-- Whether a graph precedes all others of its role among some graphs. -/
structure IsBaseAmong (graphs : List UniqueGraph) (base : UniqueGraph) : Prop where
  mem : base ∈ graphs
  first : ∀ graph ∈ graphs, graph.role = base.role → (precedence base graph).isLE

/-- Why graphs cannot be consolidated. -/
inductive Obstacle (graphs : List UniqueGraph) (assumptions : Assumptions) : MergeFault → Prop
  /-- The path of a graph has the same components as one before. -/
  | repeated {before after : List UniqueGraph} {earlier graph : UniqueGraph} :
    graphs = before ++ graph :: after → earlier ∈ before →
    compare graph.path earlier.path = .eq →
    Obstacle graphs assumptions (.suppliedTwice graph.path)
  /-- An overlay clashes with the base of its role. -/
  | overlay {base graph : UniqueGraph} {fault : MergeFault} :
    IsBaseAmong graphs base → graph ∈ graphs → graph.role = base.role →
    precedence base graph = .lt →
    OverlayClash base.path base.symbols graph fault → Obstacle graphs assumptions fault
  /-- Something is assumed for the author of a base that has an unreadable symbol. -/
  | assumed {base : UniqueGraph} {precise : String} {fault : MergeFault} :
    IsBaseAmong graphs base → assumptions.statements base.author ≠ [] →
    UnreadableAt base.symbols precise base.path fault → Obstacle graphs assumptions fault

section Obstacles

variable {graphs : List UniqueGraph} {assumptions : Assumptions} {fault : MergeFault}

/-- The base of a group precedes all others of its role. -/
theorem isBaseAmong_of_group {role : Role} {group : Group}
    (h : (groupByRole graphs).get? role = some group) : IsBaseAmong graphs group.base := by
  obtain ⟨hmem, hrole⟩ :=
    (Table.mem_members_iff h).mp (List.mem_cons_self : group.base ∈ group.members)
  refine ⟨hmem, fun graph hgraph hsame => ?_⟩
  obtain ⟨-, hsorted⟩ := Table.get?_groupByRole h
  rcases List.mem_cons.mp ((Table.mem_members_iff h).mpr ⟨hgraph, hsame.trans hrole⟩)
    with rfl | hoverlay
  · have hself : precedence group.base group.base = .eq := ReflCmp.compare_self
    rw [hself]
    rfl
  · exact (List.pairwise_cons.mp hsorted).1 graph hoverlay

variable (differ : PathsDiffer (graphs.map UniqueGraph.path))
include differ

/-- The overlays of a group are the graphs of its role after the base. -/
theorem mem_overlays_iff {role : Role} {group : Group}
    (h : (groupByRole graphs).get? role = some group) {graph : UniqueGraph} :
    graph ∈ group.overlays ↔ graph ∈ graphs ∧ graph.role = role ∧
      precedence group.base graph = .lt := by
  have hstrict := differ.rolemates role
  rw [Table.rolemates_of_get? h] at hstrict
  rw [← and_assoc, ← Table.mem_members_iff h, Group.members, List.mem_cons]
  constructor
  · intro hoverlay
    exact ⟨.inr hoverlay, (List.pairwise_cons.mp hstrict).1 graph hoverlay⟩
  · rintro ⟨rfl | hoverlay, hlt⟩
    · exact absurd rfl (ne_of_increasing hlt)
    · exact hoverlay

/-- There is a group for each base. -/
theorem IsBaseAmong.exists_group {base : UniqueGraph} (h : IsBaseAmong graphs base) :
    ∃ group, (groupByRole graphs).get? base.role = some group ∧ group.base = base := by
  obtain ⟨group, hgroup⟩ :=
    Table.mem_keys_iff.mp (mem_keys_groupByRole_iff.mpr ⟨base, h.mem, rfl⟩)
  have hbase := isBaseAmong_of_group hgroup
  obtain ⟨-, hrole⟩ :=
    (Table.mem_members_iff hgroup).mp (List.mem_cons_self : group.base ∈ group.members)
  -- Each of the two precedes the other.
  have heq : precedence group.base base = .eq :=
    OrientedCmp.isLE_antisymm (hbase.first base h.mem hrole.symm)
      (h.first group.base hbase.mem hrole)
  exact ⟨group, hgroup, differ.eq_of_compare_eq hbase.mem h.mem
    (compare_path_of_precedence_eq heq)⟩

/-- If paths differ, an obstacle is a group that clashes. -/
theorem obstacle_iff : Obstacle graphs assumptions fault ↔
    ∃ entry ∈ (groupByRole graphs).entries, entry.2.Clash entry.1 assumptions fault := by
  constructor
  · rintro (⟨rfl, hearlier, heq⟩ | ⟨hbase, hgraph, hrole, hlt, hclash⟩ |
      ⟨hbase, hassumed, hunreadable⟩)
    · rw [PathsDiffer, List.pairwise_map, List.pairwise_append] at differ
      exact absurd (OrientedCmp.eq_symm heq) (differ.2.2 _ hearlier _ List.mem_cons_self)
    · obtain ⟨group, hgroup, rfl⟩ := hbase.exists_group differ
      refine ⟨⟨_, group⟩, Table.mem_entries_iff.mpr hgroup, .inl ⟨_, ?_, hclash⟩⟩
      exact (mem_overlays_iff differ hgroup).mpr ⟨hgraph, hrole, hlt⟩
    · obtain ⟨group, hgroup, rfl⟩ := hbase.exists_group differ
      exact ⟨⟨_, group⟩, Table.mem_entries_iff.mpr hgroup, .inr ⟨hassumed, _, hunreadable⟩⟩
  · rintro ⟨⟨role, group⟩, hentry, hclash⟩
    have hgroup := Table.mem_entries_iff.mp hentry
    have hbase := isBaseAmong_of_group hgroup
    obtain ⟨-, rfl⟩ :=
      (Table.mem_members_iff hgroup).mp (List.mem_cons_self : group.base ∈ group.members)
    rcases hclash with ⟨graph, hoverlay, hclash⟩ | ⟨hassumed, precise, hunreadable⟩
    · obtain ⟨hgraph, hrole, hlt⟩ := (mem_overlays_iff differ hgroup).mp hoverlay
      exact .overlay hbase hgraph hrole hlt hclash
    · exact .assumed hbase hassumed hunreadable

omit differ

/-- Consolidation fails if there is an obstacle. -/
theorem consolidate_failsFor (graphs : List UniqueGraph) (assumptions : Assumptions) :
    (consolidate graphs assumptions).result.FailsFor (Obstacle graphs assumptions) := by
  rw [consolidate_result]
  cases hrepeated : firstRepeated .empty (graphs.map UniqueGraph.path) with
  | some path =>
    refine .of_error ?_
    obtain ⟨before, after, hsplit, hseen⟩ := firstRepeated_eq_some hrepeated
    obtain ⟨before, later, rfl, rfl, hlater⟩ := List.map_eq_append_iff.mp hsplit
    obtain ⟨graph, after, rfl, rfl, -⟩ := List.map_eq_cons_iff.mp hlater
    obtain ⟨_, hpath, heq⟩ := hseen.resolve_left Bool.false_ne_true
    obtain ⟨earlier, hearlier, rfl⟩ := List.mem_map.mp hpath
    exact .repeated rfl hearlier heq
  | none =>
    refine ((Except.FailsFor.mapM fun entry _ =>
      entry.2.merge_failsFor entry.1 assumptions).map _).congr fun fault => ?_
    exact (obstacle_iff (firstRepeated_paths_iff.mp hrepeated)).symm

/-- **Failures of consolidation.** Consolidation fails exactly if there is an obstacle, and
the fault it reports is that of an obstacle. -/
theorem consolidate_error_iff (graphs : List UniqueGraph) (assumptions : Assumptions) :
    ((∃ fault, (consolidate graphs assumptions).result = .error fault) ↔
      ∃ fault, Obstacle graphs assumptions fault) ∧
    ∀ fault, (consolidate graphs assumptions).result = .error fault →
      Obstacle graphs assumptions fault :=
  ⟨(consolidate_failsFor graphs assumptions).error_iff,
    (consolidate_failsFor graphs assumptions).error⟩

end Obstacles

end ApiSurface
