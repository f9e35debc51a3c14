import ApiSurface.Merging.Consolidation
import ApiSurface.Proofs.Tables
import Mathlib.Data.List.Pairwise

/-!
# Groups of graphs

Graphs are put into the groups of their roles one after the other. What results can be said
without the order in which they came: the group of a role has all graphs of the role and no
others, sorted by precedence. If paths are distinct precedence leaves no choice, so the
groups are the same for every order of the graphs.

## Main results

* `Table.rolemates_groupByRole`: the graphs of a role, as grouped.
* `groupByRole_entries_perm`: no graph gets lost, and none is doubled.
* `get?_groupByRole_congr`: a group depends on the graphs of its role alone.
* `groupByRole_perm`: the groups do not depend on the order of the graphs.
-/

namespace ApiSurface

open Std

/-! ### Roles as keys -/

instance : LawfulEqOrd Role where
  eq_of_compare {r s} h := by
    have hparts : compareLex (compareOn Role.kind)
        (compareLex (compareOn Role.author) (compareOn Role.others)) r s = .eq := h
    simp only [compareLex, compareOn, Ordering.then_eq_eq, Std.compare_eq_iff_eq] at hparts
    obtain ⟨hkind, hauthor, hothers⟩ := hparts
    cases r <;> cases s <;> simp_all [Role.kind, Role.author, Role.others]

/-! ### Precedence -/

instance : TransCmp precedence :=
  inferInstanceAs (TransCmp (compareLex (compareOn UniqueGraph.isVariant)
    (compareOn UniqueGraph.path)))

/-- Whether no two of some paths have the same components. -/
def PathsDiffer (paths : List Path) : Prop := paths.Pairwise fun p q => compare p q ≠ .eq

instance (paths : List Path) : Decidable (PathsDiffer paths) :=
  inferInstanceAs (Decidable (paths.Pairwise fun p q => compare p q ≠ .eq))

/-- Whether paths differ does not depend on their order. -/
theorem PathsDiffer.perm {paths paths' : List Path} (perm : paths.Perm paths')
    (h : PathsDiffer paths) : PathsDiffer paths' :=
  (perm.pairwise_iff fun hne heq => hne (OrientedCmp.eq_symm heq)).mp h

/-- If paths differ, a graph is known by the components of its path. -/
theorem PathsDiffer.eq_of_compare_eq {graphs : List UniqueGraph}
    (h : PathsDiffer (graphs.map UniqueGraph.path)) {a b : UniqueGraph} (ha : a ∈ graphs)
    (hb : b ∈ graphs) (heq : compare a.path b.path = .eq) : a = b := by
  have : Std.Symm fun a b : UniqueGraph => compare a.path b.path ≠ .eq :=
    ⟨fun _ _ hne heq => hne (OrientedCmp.eq_symm heq)⟩
  by_contra hne
  exact (List.pairwise_map.mp h).forall ha hb hne heq

/-- If paths differ, a graph is known by its path. -/
theorem PathsDiffer.eq_of_path_eq {graphs : List UniqueGraph}
    (h : PathsDiffer (graphs.map UniqueGraph.path)) {a b : UniqueGraph} (ha : a ∈ graphs)
    (hb : b ∈ graphs) (heq : a.path = b.path) : a = b :=
  h.eq_of_compare_eq ha hb (heq ▸ ReflCmp.compare_self)

/-- Graphs that neither precedes the other have paths with the same components. -/
theorem compare_path_of_precedence_eq {a b : UniqueGraph} (h : precedence a b = .eq) :
    compare a.path b.path = .eq := by
  simp only [precedence, compareLex, compareOn, Ordering.then_eq_eq] at h
  exact h.2

/-- Whether graphs are in order of precedence. -/
def InPrecedence (graphs : List UniqueGraph) : Prop :=
  graphs.Pairwise fun a b => (precedence a b).isLE

/-- Whether graphs are in order of precedence, and each precedes the next. -/
def StrictlyInPrecedence (graphs : List UniqueGraph) : Prop :=
  graphs.Pairwise fun a b => precedence a b = .lt

/-- If paths differ, the order of precedence is strict. -/
theorem InPrecedence.strictly {graphs : List UniqueGraph} (h : InPrecedence graphs)
    (differ : PathsDiffer (graphs.map UniqueGraph.path)) : StrictlyInPrecedence graphs := by
  have hpaths : graphs.Pairwise fun a b => compare a.path b.path ≠ .eq :=
    List.pairwise_map.mp differ
  refine (List.Pairwise.and h hpaths).imp ?_
  rintro a b ⟨hle, hne⟩
  cases hprec : precedence a b with
  | lt => rfl
  | eq => exact absurd (compare_path_of_precedence_eq hprec) hne
  | gt =>
    rw [hprec] at hle
    cases hle

/-- There is only one strict order of precedence of some graphs. -/
theorem StrictlyInPrecedence.unique {graphs graphs' : List UniqueGraph}
    (perm : graphs.Perm graphs') (h : StrictlyInPrecedence graphs)
    (h' : StrictlyInPrecedence graphs') : graphs = graphs' :=
  eq_of_increasing id perm h h'

/-- Inserting a graph adds it. -/
theorem insertByPrecedence_perm (graph : UniqueGraph) (graphs : List UniqueGraph) :
    (insertByPrecedence graph graphs).Perm (graph :: graphs) := by
  induction graphs with
  | nil => exact .refl _
  | cons first rest ih =>
    rw [insertByPrecedence]
    split
    · exact .refl _
    · exact (ih.cons first).trans (.swap _ _ _)

/-- Inserting a graph keeps the order of precedence. -/
theorem InPrecedence.insertByPrecedence {graph : UniqueGraph} {graphs : List UniqueGraph}
    (h : InPrecedence graphs) : InPrecedence (insertByPrecedence graph graphs) := by
  induction graphs with
  | nil => exact List.pairwise_singleton _ _
  | cons first rest ih =>
    obtain ⟨hfirst, hrest⟩ := List.pairwise_cons.mp h
    rw [ApiSurface.insertByPrecedence]
    split
    · next hlt =>
      have hle : (precedence graph first).isLE := by rw [hlt]; rfl
      refine List.pairwise_cons.mpr ⟨List.forall_mem_cons.mpr ⟨hle, fun later hlater => ?_⟩, h⟩
      exact TransCmp.isLE_trans hle (hfirst later hlater)
    · next hnot =>
      have hle : (precedence first graph).isLE := by
        by_contra hgt
        exact hnot (OrientedCmp.lt_of_not_isLE hgt)
      refine List.pairwise_cons.mpr ⟨fun later hlater => ?_, ih hrest⟩
      cases List.mem_cons.mp ((insertByPrecedence_perm graph rest).mem_iff.mp hlater) with
      | inl here => exact here ▸ hle
      | inr there => exact hfirst later there

/-! ### Members of a group -/

/-- The graphs of a group, in order of precedence. -/
def Group.members (group : Group) : List UniqueGraph := group.base :: group.overlays

/-- Adding a graph to a group inserts it by its precedence. -/
theorem Group.members_add (group : Group) (graph : UniqueGraph) :
    (group.add graph).members = insertByPrecedence graph group.members := by
  show _ = insertByPrecedence graph (group.base :: group.overlays)
  rw [Group.add, insertByPrecedence]
  split <;> rfl

namespace Table

/-- The graphs of the group of a role; none if there is no such group. -/
def rolemates (groups : Table Role Group) (role : Role) : List UniqueGraph :=
  (groups.get? role).elim [] Group.members

/-- The graphs of a group that is there. -/
theorem rolemates_of_get? {groups : Table Role Group} {role : Role} {group : Group}
    (h : groups.get? role = some group) : groups.rolemates role = group.members := by
  rw [rolemates, h, Option.elim_some]

/-- The group of a role is known by the graphs in it. -/
theorem get?_eq_of_rolemates {groups groups' : Table Role Group} {role : Role}
    (h : groups.rolemates role = groups'.rolemates role) :
    groups.get? role = groups'.get? role := by
  rw [rolemates, rolemates] at h
  cases hget : groups.get? role with
  | none =>
    cases hget' : groups'.get? role with
    | none => rfl
    | some group' => simp [hget, hget', Group.members] at h
  | some group =>
    cases hget' : groups'.get? role with
    | none => simp [hget, hget', Group.members] at h
    | some group' =>
      rw [hget, hget', Option.elim_some, Option.elim_some, Group.members, Group.members,
        List.cons.injEq] at h
      obtain ⟨base, overlays⟩ := group
      obtain ⟨base', overlays'⟩ := group'
      obtain ⟨rfl, rfl⟩ := h
      rfl

/-- Putting a graph into the group of its role inserts it there, and changes no other group. -/
theorem rolemates_addToGroup (groups : Table Role Group) (graph : UniqueGraph) (role : Role) :
    (addToGroup groups graph).rolemates role =
      if role = graph.role then insertByPrecedence graph (groups.rolemates role)
      else groups.rolemates role := by
  by_cases hrole : role = graph.role
  · subst hrole
    rw [if_pos rfl, rolemates, rolemates, addToGroup, alter, get?_insert_self,
      Option.elim_some]
    cases groups.get? graph.role with
    | none => rfl
    | some group => exact group.members_add graph
  · rw [if_neg hrole, rolemates, rolemates, addToGroup, alter, get?_insert_of_ne _ _ hrole]

/-- The graphs of a role, as grouped, are all graphs of the role in order of precedence. -/
theorem rolemates_foldl (groups : Table Role Group) (role : Role)
    (h : InPrecedence (groups.rolemates role)) (graphs : List UniqueGraph) :
    ((graphs.foldl addToGroup groups).rolemates role).Perm
        (graphs.filter (fun graph => graph.role = role) ++ groups.rolemates role) ∧
      InPrecedence ((graphs.foldl addToGroup groups).rolemates role) := by
  induction graphs generalizing groups with
  | nil => exact ⟨.refl _, h⟩
  | cons graph graphs ih =>
    rw [List.foldl_cons]
    by_cases hrole : graph.role = role
    · have hadd : (addToGroup groups graph).rolemates role =
          insertByPrecedence graph (groups.rolemates role) := by
        rw [rolemates_addToGroup, if_pos hrole.symm]
      obtain ⟨hperm, hsorted⟩ := ih _ (hadd ▸ h.insertByPrecedence)
      refine ⟨hperm.trans ?_, hsorted⟩
      rw [hadd, List.filter_cons_of_pos (by simpa using hrole)]
      exact ((insertByPrecedence_perm _ _).append_left _).trans List.perm_middle
    · have hadd : (addToGroup groups graph).rolemates role = groups.rolemates role := by
        rw [rolemates_addToGroup, if_neg (Ne.symm hrole)]
      obtain ⟨hperm, hsorted⟩ := ih _ (hadd ▸ h)
      rw [hadd] at hperm
      rw [List.filter_cons_of_neg (by simpa using hrole)]
      exact ⟨hperm, hsorted⟩

/-- The graphs of a role, as grouped, are all graphs of the role in order of precedence. -/
theorem rolemates_groupByRole (graphs : List UniqueGraph) (role : Role) :
    ((groupByRole graphs).rolemates role).Perm (graphs.filter fun graph => graph.role = role) ∧
      InPrecedence ((groupByRole graphs).rolemates role) := by
  have h := rolemates_foldl .empty role List.Pairwise.nil graphs
  rwa [show (empty : Table Role Group).rolemates role = [] from rfl, List.append_nil] at h

end Table

/-! ### Groups of all graphs -/

/-- The group of a role has all graphs of the role, in order of precedence. -/
theorem Table.get?_groupByRole {graphs : List UniqueGraph} {role : Role} {group : Group}
    (h : (groupByRole graphs).get? role = some group) :
    group.members.Perm (graphs.filter fun graph => graph.role = role) ∧
      InPrecedence group.members := by
  rw [← rolemates_of_get? h]
  exact rolemates_groupByRole graphs role

/-- The graphs of a group are those of its role. -/
theorem Table.mem_members_iff {graphs : List UniqueGraph} {role : Role} {group : Group}
    (h : (groupByRole graphs).get? role = some group) {graph : UniqueGraph} :
    graph ∈ group.members ↔ graph ∈ graphs ∧ graph.role = role := by
  rw [(get?_groupByRole h).1.mem_iff, List.mem_filter, decide_eq_true_eq]

/-- There is a group for the role of each graph, and for no other role. -/
theorem mem_keys_groupByRole_iff {graphs : List UniqueGraph} {role : Role} :
    role ∈ (groupByRole graphs).keys ↔ ∃ graph ∈ graphs, graph.role = role := by
  rw [Table.mem_keys_iff]
  constructor
  · rintro ⟨group, hgroup⟩
    exact ⟨group.base, (Table.mem_members_iff hgroup).mp List.mem_cons_self⟩
  · rintro ⟨graph, hgraph, hrole⟩
    obtain ⟨hperm, -⟩ := Table.rolemates_groupByRole graphs role
    have hmem : graph ∈ (groupByRole graphs).rolemates role :=
      hperm.mem_iff.mpr (List.mem_filter.mpr ⟨hgraph, by simpa using hrole⟩)
    cases hget : (groupByRole graphs).get? role with
    | none => simp [Table.rolemates, hget] at hmem
    | some group => exact ⟨group, rfl⟩

/-- Putting a graph into a group adds it to all graphs that are grouped. -/
theorem addToGroup_entries_perm (groups : Table Role Group) (graph : UniqueGraph) :
    ((addToGroup groups graph).entries.flatMap fun entry => entry.2.members).Perm
      (graph :: groups.entries.flatMap fun entry => entry.2.members) := by
  have hold := (groups.entries_perm graph.role).flatMap_right fun entry => entry.2.members
  have hnew (group : Group) :=
    (groups.insert_entries_perm graph.role group).flatMap_right fun entry => entry.2.members
  rw [addToGroup, Table.alter]
  cases hget : groups.get? graph.role with
  | none =>
    rw [hget] at hold
    exact (hnew _).trans (hold.symm.cons graph)
  | some group =>
    rw [hget] at hold
    refine (hnew _).trans (.trans ?_ (hold.symm.cons graph))
    rw [List.flatMap_cons, Group.members_add]
    exact (insertByPrecedence_perm graph group.members).append_right _

/-- No graph gets lost in the groups, and none is doubled. -/
theorem groupByRole_entries_perm (graphs : List UniqueGraph) :
    ((groupByRole graphs).entries.flatMap fun entry => entry.2.members).Perm graphs := by
  have hfold (groups : Table Role Group) :
      ((graphs.foldl addToGroup groups).entries.flatMap fun entry => entry.2.members).Perm
        (graphs ++ groups.entries.flatMap fun entry => entry.2.members) := by
    induction graphs generalizing groups with
    | nil => exact .refl _
    | cons graph graphs ih =>
      refine (ih (addToGroup groups graph)).trans ?_
      exact ((addToGroup_entries_perm groups graph).append_left graphs).trans List.perm_middle
  simpa [groupByRole, Table.empty] using hfold .empty

/-- If paths differ, the graphs of a role, as grouped, are in strict order of precedence. -/
theorem PathsDiffer.rolemates {graphs : List UniqueGraph}
    (differ : PathsDiffer (graphs.map UniqueGraph.path)) (role : Role) :
    StrictlyInPrecedence ((groupByRole graphs).rolemates role) := by
  obtain ⟨hperm, hsorted⟩ := Table.rolemates_groupByRole graphs role
  refine hsorted.strictly (PathsDiffer.perm (hperm.symm.map _) ?_)
  exact differ.sublist (List.filter_sublist.map _)

/-- If paths differ, the group of a role depends on the graphs of the role
alone, in any order. -/
theorem get?_groupByRole_congr {graphs graphs' : List UniqueGraph} {role : Role}
    (perm : (graphs.filter fun graph => graph.role = role).Perm
      (graphs'.filter fun graph => graph.role = role))
    (differ : PathsDiffer (graphs.map UniqueGraph.path))
    (differ' : PathsDiffer (graphs'.map UniqueGraph.path)) :
    (groupByRole graphs).get? role = (groupByRole graphs').get? role := by
  obtain ⟨hperm, -⟩ := Table.rolemates_groupByRole graphs role
  obtain ⟨hperm', -⟩ := Table.rolemates_groupByRole graphs' role
  refine Table.get?_eq_of_rolemates (StrictlyInPrecedence.unique ?_ ?_ ?_)
  · exact hperm.trans (perm.trans hperm'.symm)
  · exact differ.rolemates role
  · exact differ'.rolemates role

/-- **Groups in any order.** If paths differ, the groups do not depend on the order
of the graphs. -/
theorem groupByRole_perm {graphs graphs' : List UniqueGraph} (perm : graphs.Perm graphs')
    (differ : PathsDiffer (graphs.map UniqueGraph.path)) :
    groupByRole graphs = groupByRole graphs' :=
  Table.ext_get? fun _ => get?_groupByRole_congr (perm.filter _) differ
    (differ.perm (perm.map _))

end ApiSurface
