import ApiSurface.Proofs.Merging.MergedSymbols
import ApiSurface.Proofs.Merging.Partition
import ApiSurface.Proofs.Merging.UniqueSymbols
import ApiSurface.Proofs.Naming.Names

/-!
# What a merged graph claims to be

The role of a merged graph says what module its symbols belong to. It is found from the name of
a file together with the module that the file declares, once for each graph, and graphs are
merged if their roles are the same. So it holds of the base and of each overlay alike: each
declares the module of the role, or, if the role is that of an extension, is named for it.

## Main results

* `GraphName.describes_role`, `GraphName.fits_role`: what the role of a file says of its
  module and its name.
* `MergedGraph.IsIdentified`, `consolidate_isIdentified`: what roles and identifiers say
  of merged graphs.
-/

namespace ApiSurface

/-! ### What a role says -/

/-- Whether a role is one of a module: the module has the name in the role, and the
bystanders in the role are those that it declares. The name of an extending module stands in
no file, so the role of an extension says only that no bystanders are declared. -/
def Role.Describes : Role → Module → Prop
  | .main name, module => module.name = name ∧ module.bystanders.getD [] = []
  | .bystander name others, module =>
    module.name = name ∧ others ≠ [] ∧ others.Pairwise (fun a b => compare a b = .lt) ∧
      ∀ other, other ∈ others ↔ other ∈ module.bystanders.getD []
  | .extension _ _, module => module.bystanders.getD [] = []

/-- Whether a path ends in the name of an extension: that of the extending module and of the
extended one, or a longer name that starts with the extended module and ends with the
extending one. -/
inductive Path.NamesExtension (path : Path) : String → String → Prop
  | pair {extending extended : String} : path.HasSegments [extending, extended] →
    NamesExtension path extending extended
  | longer {first last : String} {middle : List String} : middle ≠ [] →
    path.HasSegments (first :: middle ++ [last]) → NamesExtension path last first

/-- Whether a path may be that of a graph with a role. -/
def Role.Fits (role : Role) (path : Path) : Prop :=
  ∀ extending extended, role = .extension extending extended →
    path.NamesExtension extending extended

/-- A module has bystanders unless it declares none. -/
theorem Module.hasBystanders_eq_false_iff {module : Module} :
    module.hasBystanders = false ↔ module.bystanders.getD [] = [] := by
  rw [Module.hasBystanders]
  cases module.bystanders <;> simp

/-- The role of a file describes the module that the file declares. -/
theorem GraphName.describes_role (name : GraphName) (module : Module) :
    (name.role module).Describes module := by
  unfold role
  split
  · next hbystanders =>
    refine ⟨rfl, fun hnil => ?_, Table.keys_increase _, fun other => mem_distinct⟩
    have hnone : module.bystanders.getD [] = [] := by
      refine List.eq_nil_iff_forall_not_mem.mpr fun other hother => ?_
      rw [← mem_distinct, ← Module.bystanderSet, hnil] at hother
      exact List.not_mem_nil hother
    rw [Module.hasBystanders_eq_false_iff.mpr hnone] at hbystanders
    cases hbystanders
  · next hbystanders =>
    have hnone :=
      Module.hasBystanders_eq_false_iff.mp (Bool.eq_false_of_not_eq_true hbystanders)
    cases name with
    | main _ => exact ⟨rfl, hnone⟩
    | extension _ _ => exact hnone
    | compound _ _ _ => exact hnone

/-- The role of a file fits the path that its name is read from. -/
theorem GraphName.fits_role {path : Path} {name : GraphName} (h : ofPath path = .ok name)
    (module : Module) : (name.role module).Fits path := by
  intro extending extended hrole
  obtain ⟨first, later, hsegments, rfl⟩ := ofPath_eq_ok_iff.mp h
  unfold role at hrole
  split at hrole
  · cases hrole
  · match later with
    | [] => cases hrole
    | [second] =>
      cases hrole
      exact .pair hsegments
    | second :: third :: rest =>
      cases hrole
      refine .longer (List.cons_ne_nil second (third :: rest).dropLast) ?_
      rwa [List.cons_append, List.cons_append, List.dropLast_concat_getLast]

/-! ### Merged graphs -/

/-- What the role of a merged graph and the identifiers of its symbols say, given the graphs
that have been decoded. -/
structure MergedGraph.IsIdentified (decoded : List DecodedGraph) (m : MergedGraph) : Prop where
  /-- The role describes the module of the graph. -/
  module : m.role.Describes m.module
  /-- The base and each overlay has been decoded; the role describes the module that it
  declares, and fits its path. -/
  contributors : ∀ path ∈ m.paths, ∃ d ∈ decoded, d.path = path ∧
    m.role.Describes d.graph.module ∧ m.role.Fits path
  /-- The module of the graph is that of the base. -/
  base : ∃ d ∈ decoded, d.path = m.basePath ∧ d.graph.module = m.module
  /-- Each symbol stands under its own identifier. -/
  keyed : KeyedByPrecise m.symbols

/-- A symbol that has been extended keeps its identifier. -/
theorem Symbol.Extended.precise_eq {base merged : Symbol} {offered : Availability}
    (h : base.Extended offered merged) : merged.precise = base.precise := by
  rw [h.mergedSymbol.fields]
  rfl

/-- **Identity.** Roles and identifiers tell of merged graphs what the graphs that they are
made of declare and are named for. -/
theorem consolidate_isIdentified {decoded : List DecodedGraph} {assumptions : Assumptions}
    {merged : List MergedGraph} {tally : Tally}
    (named : ∀ d ∈ decoded, GraphName.ofPath d.path = .ok d.name)
    (h : (consolidate (decoded.map DecodedGraph.unique) assumptions).result =
      .ok (merged, tally)) :
    ∀ m ∈ merged, m.IsIdentified decoded := by
  intro m hm
  obtain ⟨group, t, hgroup, hmerge⟩ := exists_group_of_mem h hm
  obtain ⟨hextends, hmerged⟩ := Group.merge_eq_ok hmerge
  have hmember : ∀ graph ∈ group.members, ∃ d ∈ decoded, d.unique = graph ∧
      m.role.Describes d.graph.module ∧ m.role.Fits d.path := by
    intro graph hgraph
    obtain ⟨hmem, hrole⟩ := (Table.mem_members_iff hgroup).mp hgraph
    obtain ⟨d, hd, rfl⟩ := List.mem_map.mp hmem
    exact ⟨d, hd, rfl, hrole ▸ d.name.describes_role d.graph.module,
      hrole ▸ GraphName.fits_role (named d hd) d.graph.module⟩
  obtain ⟨original, horiginal, hbase, hdescribes, -⟩ := hmember group.base List.mem_cons_self
  have hpaths : m.paths = group.members.map UniqueGraph.path := by rw [hmerged]; rfl
  have hpath : original.path = m.basePath := by rw [hmerged, ← hbase]; rfl
  have hmodule : original.graph.module = m.module := by rw [hmerged, ← hbase]; rfl
  constructor
  case module => exact hmodule ▸ hdescribes
  case contributors =>
    intro path hpath
    rw [hpaths] at hpath
    obtain ⟨graph, hgraph, rfl⟩ := List.mem_map.mp hpath
    obtain ⟨d, hd, rfl, hdescribes, hfits⟩ := hmember graph hgraph
    exact ⟨d, hd, rfl, hdescribes, hfits⟩
  case base => exact ⟨original, horiginal, hpath, hmodule⟩
  case keyed =>
    intro precise symbol hsymbol
    obtain ⟨_, kept, -, hkept, hextended⟩ := hextends.exists_of_get? hsymbol
    rw [hextended.precise_eq]
    rw [← hbase] at hkept
    exact preferredSymbols_keyed original.graph.symbols precise kept hkept

/-- A graph with one symbol, of a module that declares some bystanders. -/
def decodedWithBystanders (path : String) (name : GraphName)
    (bystanders : Option (List String)) : DecodedGraph where
  path := .ofText path
  name := name
  graph :=
    { metadata := ⟨⟨1, 0, 0, none, none⟩, "g"⟩
      module := ⟨"Kit", .unknown, bystanders, false⟩
      symbols := [⟨⟨"s", "swift"⟩, ⟨"func", "Function"⟩, [], .untitled, "public", .empty⟩]
      relationships := [] }

/-- Graphs of a module, of what it adds to another one, under a shorter and a longer name,
and of the module together with bystanders. -/
def decodedKits : List DecodedGraph :=
  [decodedWithBystanders "Kit.symbols.json" (.main "Kit") none,
    decodedWithBystanders "Kit@Base.symbols.json" (.extension "Kit" "Base") none,
    decodedWithBystanders "Base@Old@Kit.symbols.json" (.compound "Base" ["Old"] "Kit")
      (some []),
    decodedWithBystanders "Kit@B@A.symbols.json" (.compound "Kit" ["B"] "A")
      (some ["B", "A", "B"])]

/-- The four graphs of a module are merged into three, of which each is identified. -/
theorem consolidate_isIdentified_kits :
    (∀ d ∈ decodedKits, GraphName.ofPath d.path = .ok d.name) ∧ ∃ merged tally,
      (consolidate (decodedKits.map DecodedGraph.unique) .empty).result = .ok (merged, tally) ∧
      merged.map MergedGraph.role =
        [.extension "Kit" "Base", .main "Kit", .bystander "Kit" ["A", "B"]] ∧
      ∀ m ∈ merged, m.IsIdentified decodedKits := by
  have hnamed : ∀ d ∈ decodedKits, GraphName.ofPath d.path = .ok d.name := by decide +kernel
  have hroles : (consolidate (decodedKits.map DecodedGraph.unique) .empty).result.toOption.map
      (fun r => r.1.map MergedGraph.role) =
        some [.extension "Kit" "Base", .main "Kit", .bystander "Kit" ["A", "B"]] := by
        decide +kernel
  cases h : (consolidate (decodedKits.map DecodedGraph.unique) .empty).result with
  | error fault => rw [h] at hroles; cases hroles
  | ok r =>
    obtain ⟨merged, tally⟩ := r
    rw [h, Except.toOption, Option.map_some, Option.some.injEq] at hroles
    exact ⟨hnamed, merged, tally, rfl, hroles, consolidate_isIdentified hnamed h⟩

end ApiSurface
