import ApiSurface.Proofs.Reading.Faithful

/-!
# Reading related trees

Two trees may differ in what no shape looks at: the places of their parts, the way in which
their strings are written, the order of the members of their objects. A relation between
trees is a likeness if it leaves no other difference: related trees are of the same kind,
and their parts are related in their turn, the items of an array one by one, the members of
an object under their keys and in some order. A shape looks at the members of an object
under their keys, one field after the other, and no key is repeated, so it reads related
trees as the same value.

Arrays and objects are entered under a bound on their nesting, and the bound need not be
the same for both trees. A likeness therefore speaks of two bounds, under which the trees
are to be read.

## Main definitions

* `EntriesLike`: members of two objects that are related under their keys.
* `Likeness`: relations between trees that a shape does not see.
* `Respects`: whether two readings give the same for related trees.

## Main results

* `EntriesLike.under`, `EntriesLike.besides`: what stands under a key, and besides it.
* `Shape.respects`: faithful shapes read related trees as the same value.
-/

namespace ApiSurface

open Json Wire

/-! ### Related lists -/

section Lists

variable {α β γ δ : Type} {R : α → γ → Prop} {S : β → δ → Prop} {T : γ → δ → Prop}
  {as : List α} {bs : List β} {cs : List γ} {ds : List δ}

/-- Lists are related by way of what is given for their members, if that is related. -/
theorem forall₂_of_given (given : List.Forall₂ R as cs) (given' : List.Forall₂ S bs ds)
    (related : List.Forall₂ T cs ds) :
    List.Forall₂ (fun a b => ∃ c d, R a c ∧ S b d ∧ T c d) as bs := by
  have hlater :=
    Except.forall₂_trans (T := fun c b => ∃ d, S b d ∧
      T c d) (fun c d b hcd hbd => ⟨d, hbd, hcd⟩)
    related given'.flip
  exact Except.forall₂_trans (fun a c b hac ⟨d, h⟩ => ⟨c, d, hac, h⟩) given hlater

/-- The same if what is given is related in some order. -/
theorem exists_perm_of_given {ordered : List δ} (given : List.Forall₂ R as cs)
    (given' : List.Forall₂ S bs ds) (related : List.Forall₂ T cs ordered)
    (perm : ordered.Perm ds) :
    ∃ ordered', List.Forall₂ (fun a b => ∃ c d, R a c ∧ S b d ∧ T c d) as ordered' ∧
      ordered'.Perm bs := by
  obtain ⟨ordered', hordered, hperm⟩ := List.perm_comp_forall₂ perm given'.flip
  exact ⟨ordered', forall₂_of_given given hordered.flip related, hperm⟩

/-- What is given for each member of a list is given for each member of a related list, in a
related way. -/
theorem exists_forall₂_of_related {Q : α → β → Prop} {cs : List γ}
    (related : List.Forall₂ Q as bs) (given : List.Forall₂ R as cs)
    (each : ∀ a b, ∀ c ∈ cs, Q a b → R a c → ∃ d, S b d ∧ T c d) :
    ∃ ds, List.Forall₂ S bs ds ∧ List.Forall₂ T cs ds := by
  induction related generalizing cs with
  | nil =>
    cases given
    exact ⟨[], .nil, .nil⟩
  | cons hab _ ih =>
    cases given with
    | cons hac hrest =>
      obtain ⟨d, hbd, hcd⟩ := each _ _ _ List.mem_cons_self hab hac
      obtain ⟨ds, hbds, hcds⟩ :=
        ih hrest fun a b c hc => each a b c (List.mem_cons_of_mem _ hc)
      exact ⟨d :: ds, .cons hbd hbds, .cons hcd hcds⟩

end Lists

namespace Wire

variable {α : Type}

/-! ### Members of objects -/

/-- Whether two lists of nodes are related one by one, in some order. -/
def NodesLike (R : Node → Node → Prop) (nodes nodes' : List Node) : Prop :=
  ∃ ordered, List.Forall₂ R nodes ordered ∧ ordered.Perm nodes'

/-- Whether the entries of two objects are related under their keys, of which none
is repeated. -/
structure EntriesLike (R : Node → Node → Prop) (entries entries' : List (String × Node)) :
    Prop where
  related : ∃ ordered, List.Forall₂ (fun e e' => e.1 = e'.1 ∧ R e.2 e'.2) entries ordered ∧
    ordered.Perm entries'
  distinct : entries.Pairwise fun e e' => e.1 ≠ e'.1

section Entries

variable {R : Node → Node → Prop} {nodes nodes' : List Node}
  {entries entries' : List (String × Node)}

theorem NodesLike.eq_nil (h : NodesLike R [] nodes') : nodes' = [] := by
  obtain ⟨ordered, hall, hperm⟩ := h
  cases hall
  exact List.nil_perm.mp hperm

theorem NodesLike.eq_singleton {node : Node} (h : NodesLike R [node] nodes') :
    ∃ node', nodes' = [node'] ∧ R node node' := by
  obtain ⟨ordered, hall, hperm⟩ := h
  obtain ⟨node', _, hnode, hrest, rfl⟩ := List.forall₂_cons_left_iff.mp hall
  cases hrest
  exact ⟨node', (List.singleton_perm.mp hperm).symm, hnode⟩

/-- The first items of arrays whose items are related. -/
theorem nodesLike_take_one (h : List.Forall₂ R nodes nodes') :
    NodesLike R (nodes.take 1) (nodes'.take 1) :=
  ⟨_, List.forall₂_take 1 h, .refl _⟩

/-- What stands under a key in related entries is related. -/
theorem forall₂_under (key : String)
    (h : List.Forall₂ (fun e e' => e.1 = e'.1 ∧ R e.2 e'.2) entries entries') :
    List.Forall₂ R (under key entries) (under key entries') := by
  rw [under, under, List.forall₂_map_left_iff, List.forall₂_map_right_iff]
  exact (List.rel_filter (fun e e' he => by simp [he.1]) h).imp fun _ _ he => he.2

/-- What stands besides a key in related entries is related. -/
theorem forall₂_besides (key : String)
    (h : List.Forall₂ (fun e e' => e.1 = e'.1 ∧ R e.2 e'.2) entries entries') :
    List.Forall₂ (fun e e' => e.1 = e'.1 ∧ R e.2 e'.2) (besides key entries)
      (besides key entries') :=
  List.rel_filter (fun e e' he => by simp [he.1]) h

/-- What stands under a key in related objects is related. -/
theorem EntriesLike.under (h : EntriesLike R entries entries') (key : String) :
    NodesLike R (Wire.under key entries) (Wire.under key entries') := by
  obtain ⟨ordered, hrelated, hperm⟩ := h.related
  exact ⟨Wire.under key ordered, forall₂_under key hrelated, under_perm hperm key⟩

/-- The members of related objects besides a key are related. -/
theorem EntriesLike.besides (h : EntriesLike R entries entries') (key : String) :
    EntriesLike R (Wire.besides key entries) (Wire.besides key entries') := by
  obtain ⟨ordered, hrelated, hperm⟩ := h.related
  exact ⟨⟨Wire.besides key ordered, forall₂_besides key hrelated, besides_perm hperm key⟩,
    h.distinct.filter _⟩

/-- The members of an object can be passed over if whatever is related to a node can. -/
theorem EntriesLike.skip (h : EntriesLike R entries entries')
    (skips : ∀ {node node'}, R node node' → node'.skip = .ok ()) :
    ∀ entry ∈ entries', entry.2.skip = .ok () := by
  obtain ⟨ordered, hrelated, hperm⟩ := h.related
  intro entry hentry
  obtain ⟨_, -, -, hvalue⟩ := Except.exists_of_forall₂ hrelated (hperm.mem_iff.mpr hentry)
  exact skips hvalue

/-- What is given for each entry of an object is given for each entry of a related object,
in a related way and in some order. -/
theorem EntriesLike.exists_given (h : EntriesLike R entries entries') {β : Type}
    {S : String × Node → α → Prop} {U : String × Node → β → Prop} {T : α → β → Prop}
    {as : List α} (given : List.Forall₂ S entries as)
    (each : ∀ e e' a, e ∈ entries → e.1 = e'.1 → R e.2 e'.2 → S e a → ∃ b, U e' b ∧ T a b) :
    ∃ mid bs, List.Forall₂ T as mid ∧ mid.Perm bs ∧ List.Forall₂ U entries' bs := by
  obtain ⟨ordered, hrelated, hperm⟩ := h.related
  obtain ⟨mid, hmid, hrel⟩ :=
    exists_forall₂_of_related (T := T) (Except.forall₂_mem hrelated) given
    fun e e' a _ h hgiven => each e e' a h.1 h.2.2.1 h.2.2.2 hgiven
  obtain ⟨bs, hbs, hperm'⟩ := List.perm_comp_forall₂ hperm.symm hmid
  exact ⟨mid, bs, hrel, hperm'.symm, hbs⟩

/-- What is given under the keys of an object has distinct keys. -/
theorem EntriesLike.distinct_keys (h : EntriesLike R entries entries')
    {pairs : List (String × α)}
    (given : List.Forall₂ (fun e pair => e.1 = pair.1) entries pairs) :
    pairs.Pairwise fun pair pair' => pair.1 ≠ pair'.1 := by
  have hkeys : pairs.map Prod.fst = entries.map Prod.fst :=
    Except.map_eq_of_forall₂ (fun _ _ h => h.symm) given
  exact List.pairwise_map.mp (hkeys ▸ List.pairwise_map.mpr h.distinct)

end Entries

/-! ### Readings -/

/-- Whether what one reading gives for a node the other gives for any related node. -/
def Respects (R : Node → Node → Prop) (read read' : Node → Except Fault α) : Prop :=
  ∀ node node' a, R node node' → read node = .ok a → read' node' = .ok a

section Readings

variable {R : Node → Node → Prop} {read read' : Node → Except Fault α}
  {nodes nodes' : List Node}

/-- Nodes that are related one by one are read as the same values. -/
theorem Respects.forall₂ (respects : Respects R read read') {as : List α}
    (related : List.Forall₂ R nodes nodes')
    (h : List.Forall₂ (fun node a => read node = .ok a) nodes as) :
    List.Forall₂ (fun node a => read' node = .ok a) nodes' as :=
  Except.forall₂_trans (fun node' node a (hrelated : R node node') ha =>
    respects node node' a hrelated ha) related.flip h

/-- The only value of a field that must be there. -/
theorem Respects.only (respects : Respects R read read') (related : NodesLike R nodes nodes')
    {a : α} (h : ∃ node, nodes = [node] ∧ read node = .ok a) :
    ∃ node, nodes' = [node] ∧ read' node = .ok a := by
  obtain ⟨node, rfl, ha⟩ := h
  obtain ⟨node', rfl, hrelated⟩ := related.eq_singleton
  exact ⟨node', rfl, respects node node' a hrelated ha⟩

/-- The value of a field that may be missing. -/
theorem Respects.gives (respects : Respects R read read') (related : NodesLike R nodes nodes')
    {default a : α} (h : Gives read default nodes a) : Gives read' default nodes' a := by
  obtain ⟨rfl, rfl⟩ | h := h
  · exact .inl ⟨related.eq_nil, rfl⟩
  · exact .inr (respects.only related h)

theorem Respects.map {β : Type} (respects : Respects R read read') (f : α → β) :
    Respects R (fun node => (read node).map f) fun node => (read' node).map f := by
  intro node node' b related h
  obtain ⟨a, ha, rfl⟩ := Except.map_eq_ok_iff.mp h
  exact Except.map_eq_ok_iff.mpr ⟨a, respects node node' a related ha, rfl⟩

/-- A value that may be `null` is read as such, or is there. -/
theorem decodeNullable_eq_ok_iff {node : Node} {a : Option α} :
    decodeNullable read node = .ok a ↔
      ((∃ start, node = .null start) ∧ a = none) ∨
        (¬ ∃ start, node = .null start) ∧ ∃ b, read node = .ok b ∧ some b = a := by
  cases node with
  | null start => simp [decodeNullable, eq_comm]
  | _ => simp [decodeNullable, Except.map_eq_ok_iff]

end Readings

/-! ### Likenesses -/

/-- Whether a relation between nodes, the first of which is read under one bound on nesting
and the second under another, leaves no difference between them that a shape sees. -/
structure Likeness (R : Depth → Depth → Node → Node → Prop) : Prop where
  isNull_iff : ∀ {depth depth' node node'}, R depth depth' node node' →
    ((∃ start, node = .null start) ↔ ∃ start, node' = .null start)
  bool : ∀ {depth depth' b start node'}, R depth depth' (.bool b start) node' →
    ∃ start', node' = .bool b start'
  number : ∀ {depth depth' start n stop node'},
    R depth depth' (.number start (.ok n) stop) node' →
    ∃ start' stop', node' = .number start' (.ok n) stop'
  text : ∀ {depth depth' spelling node' s}, R depth depth' (.text spelling) node' →
    spelling.text = .ok s → ∃ spelling', node' = .text spelling' ∧ spelling'.text = .ok s
  /-- The items of arrays are related one by one. -/
  array : ∀ {depth depth' start items node' inner}, R depth depth' (.array start items) node' →
    depth.enter start = .ok inner →
    ∃ start' items' inner' nodes nodes', node' = .array start' items' ∧
      depth'.enter start' = .ok inner' ∧
      items.nodes? = some nodes ∧ items'.nodes? = some nodes' ∧
      List.Forall₂ (R inner inner') nodes nodes'
  /-- The members of objects are related under their keys. -/
  object : ∀ {depth depth' start members node' inner entries},
    R depth depth' (.object start members) node' →
    depth.enter start = .ok inner → members.entries? = some entries →
    ∃ start' members' inner' entries', node' = .object start' members' ∧
      depth'.enter start' = .ok inner' ∧
      members'.entries? = some entries' ∧ EntriesLike (R inner inner') entries entries'
  /-- What is related to a node can be passed over. -/
  skip : ∀ {depth depth' node node'}, R depth depth' node node' → node'.skip = .ok ()
  /-- What is kept of related nodes is settled as the same value. -/
  keep : ∀ {depth depth' node node' v}, R depth depth' node node' → node.keep depth = .ok v →
    ∃ v' settled, node'.keep depth' = .ok v' ∧ v.settle = .ok settled ∧ v'.settle = .ok settled

section Likeness

variable {R : Depth → Depth → Node → Node → Prop} (like : Likeness R) {depth depth' : Depth}
include like

theorem Likeness.nullable {read read' : Node → Except Fault α}
    (respects : Respects (R depth depth') read read') :
    Respects (R depth depth') (decodeNullable read) (decodeNullable read') := by
  intro node node' a related h
  rw [decodeNullable_eq_ok_iff, like.isNull_iff related] at h
  rw [decodeNullable_eq_ok_iff]
  obtain h | ⟨hnull, b, hb, rfl⟩ := h
  · exact .inl h
  · exact .inr ⟨hnull, b, respects node node' b related hb, rfl⟩

theorem Likeness.respects_flag : Respects (R depth depth') decodeFlag decodeFlag := by
  intro node node' a related h
  cases node with
  | bool b start =>
    obtain ⟨start', rfl⟩ := like.bool related
    exact h
  | _ => exact absurd h mismatch_ne_ok

theorem Likeness.respects_text (due : String) :
    Respects (R depth depth') (fun node => node.readText due) fun node =>
      node.readText due := by
  intro node node' s related h
  cases node with
  | text spelling =>
    obtain ⟨spelling', rfl, hs⟩ := like.text related h
    exact hs
  | _ => exact absurd h mismatch_ne_ok

theorem Likeness.respects_natural (bound : Nat) (due : String) :
    Respects (R depth depth') (decodeNatural bound due) (decodeNatural bound due) := by
  intro node node' n related h
  cases node with
  | number start value stop =>
    cases value with
    | error fault => cases h
    | ok number =>
      obtain ⟨start', stop', rfl⟩ := like.number related
      cases number with
      | integer i =>
        simp only [decodeNatural, Except.ok_bind] at h ⊢
        split at h
        · next hbound =>
          rw [if_pos hbound]
          exact h
        · cases h
      | real x => cases h
  | _ => exact absurd h mismatch_ne_ok

theorem Likeness.respects_choice (cases : List (String × α)) :
    Respects (R depth depth') (decodeChoice depth cases) (decodeChoice depth' cases) := by
  intro node node' a related h
  rw [decodeChoice_iff] at h ⊢
  obtain ⟨spelling, name, rfl, hname, hcase⟩ | ⟨start, members, inner, name, place, rfl,
    henter, hentries, hcase⟩ := h
  · obtain ⟨spelling', rfl, hname'⟩ := like.text related hname
    exact .inl ⟨spelling', name, rfl, hname', hcase⟩
  · obtain ⟨start', members', inner', entries', rfl, henter', hentries',
        ⟨ordered, hrelated, hperm⟩, -⟩ :=
      like.object related henter hentries
    obtain ⟨⟨_, value⟩, _, ⟨rfl, hvalue⟩, hnone, rfl⟩ := List.forall₂_cons_left_iff.mp hrelated
    cases hnone
    obtain rfl := List.singleton_perm.mp hperm
    obtain ⟨place', rfl⟩ := (like.isNull_iff hvalue).mp ⟨place, rfl⟩
    exact .inr ⟨start', members', inner', name, place', rfl, henter', hentries', hcase⟩

/-- The members that an open record keeps are the same for related objects. -/
theorem Likeness.settleExtras {left left' : List (String × Node)}
    (related : EntriesLike (R depth depth') left left') {kept : List (String × Value)}
    {table : Table String Value} (hkeeps : List.Forall₂ (Keeps depth) left kept)
    (h : settleExtras kept = .ok table) :
    ∃ kept', List.Forall₂ (Keeps depth') left' kept' ∧
      Wire.settleExtras kept' = .ok table := by
  obtain ⟨settled, hsettled, rfl⟩ := settleExtras_eq_ok_iff.mp h
  obtain ⟨mid, kept', hmid, hperm, hkeeps'⟩ := related.exists_given
    (U := Keeps depth') (T := fun m m' => m.1 = m'.1 ∧ ∃ v, m.2.settle = .ok v ∧
      m'.2.settle = .ok v) hkeeps
    fun e e' m _ hkey hvalue hm => by
      obtain ⟨v', settled, hv', hsettle⟩ := like.keep hvalue hm.2
      exact ⟨(m.1, v'), ⟨hkey.symm.trans hm.1, hv'⟩, rfl, settled, hsettle⟩
  have hsettles : List.Forall₂ (fun m m' => m.1 = m'.1 ∧ m.2.settle = .ok m'.2) mid settled :=
    Except.forall₂_trans (fun m' m s ⟨hkey, v, hv, hv'⟩ ⟨hname, hs⟩ =>
      ⟨hkey.symm.trans hname, hv'.trans (hv.symm.trans hs)⟩) hmid.flip hsettled
  obtain ⟨settled', hsettled', hperm'⟩ := List.perm_comp_forall₂ hperm.symm hsettles
  have hdistinct := related.distinct_keys
    (Except.forall₂_trans (fun _ _ _ h h' => h.1.trans h'.1) hkeeps hsettled)
  refine ⟨kept', hkeeps', settleExtras_eq_ok_iff.mpr ⟨settled', hsettled', ?_⟩⟩
  exact (Table.ofList_eq_of_perm hdistinct hperm'.symm).symm

end Likeness

/-! ### Shapes -/

section Shapes

variable {R : Depth → Depth → Node → Node → Prop} (like : Likeness R)
include like

mutual
/-- **Reading related trees.** A faithful shape reads related nodes as the same value. -/
theorem Shape.respects :
    {α : Type} → (shape : Shape α) → shape.IsFaithful → (depth depth' : Depth) →
    Respects (R depth depth') (shape.decode depth) (shape.decode depth')
  | _, .text, _, _, _ => like.respects_text "a string"
  | _, .word32, _, _, _ => (like.respects_natural UInt32.size "u32").map Nat.toUInt32
  | _, .word64, _, _, _ => (like.respects_natural UInt64.size "usize").map Nat.toUInt64
  | _, .flag, _, _, _ => like.respects_flag
  | _, .raw, faithful, _, _ => faithful.elim
  | _, .choice cases _ _, _, _, _ => like.respects_choice cases
  | _, .list item, faithful, depth, depth' => by
    intro node node' as related h
    obtain ⟨start, items, inner, nodes, rfl, henter, hnodes, has⟩ := Shape.decode_list_iff.mp h
    obtain ⟨start', items', inner', _, nodes', rfl, henter', hsome, hnodes', hall⟩ :=
      like.array related henter
    cases hnodes.symm.trans hsome
    exact Shape.decode_list_iff.mpr ⟨start', items', inner', nodes', rfl, henter', hnodes',
      (item.respects faithful inner inner').forall₂ hall has⟩
  | _, .table item, faithful, depth, depth' => by
    intro node node' t related h
    obtain ⟨start, members, inner, entries, pairs, rfl, henter, hentries, hpairs, rfl⟩ :=
      Shape.decode_table_iff.mp h
    obtain ⟨start', members', inner', entries', rfl, henter', hentries', hlike⟩ :=
      like.object related henter hentries
    obtain ⟨mid, pairs', hmid, hperm, hpairs'⟩ := hlike.exists_given
      (U := fun e pair => e.1 = pair.1 ∧ item.decode inner' e.2 = .ok pair.2) (T := Eq) hpairs
      fun e e' pair _ hkey hvalue hpair =>
        ⟨pair, ⟨hkey.symm.trans hpair.1,
          item.respects faithful inner inner' e.2 e'.2 pair.2 hvalue hpair.2⟩, rfl⟩
    obtain rfl := List.forall₂_eq_eq_eq ▸ hmid
    have hdistinct := hlike.distinct_keys (hpairs.imp fun _ _ h => h.1)
    exact Shape.decode_table_iff.mpr ⟨start', members', inner', entries', pairs', rfl, henter',
      hentries', hpairs', (Table.ofList_eq_of_perm hdistinct hperm).symm⟩
  | _, .record name fields make parts made, faithful, depth, depth' => by
    intro node node' a related h
    obtain ⟨start, inner, values, henter, rfl,
      ⟨members, entries, left, rfl, hentries, hreads, hskip⟩ |
      ⟨items, nodes, rfl, hnodes, hreads⟩⟩ := Shape.decode_record_iff.mp h
    · obtain ⟨start', members', inner', entries', rfl, henter', hentries', hlike⟩ :=
        like.object related henter hentries
      obtain ⟨left', hreads', hleft⟩ := fields.reads_like faithful.1 hlike hreads
      exact Shape.decode_record_iff.mpr ⟨start', inner', values, henter', rfl,
        .inl ⟨members', entries', left', rfl, hentries', hreads', hleft.skip like.skip⟩⟩
    · obtain ⟨start', items', inner', _, nodes', rfl, henter', hsome, hnodes', hall⟩ :=
        like.array related henter
      cases hnodes.symm.trans hsome
      exact Shape.decode_record_iff.mpr ⟨start', inner', values, henter', rfl,
        .inr ⟨items', nodes', rfl, hnodes', fields.readsInOrder_like faithful.1 hall hreads⟩⟩
  | _, .openRecord name fields make parts extras made, faithful, depth, depth' => by
    intro node node' a related h
    obtain ⟨start, members, inner, entries, values, left, kept, table, rfl, henter, hentries,
      hreads, hkeeps, htable, rfl⟩ := Shape.decode_openRecord_iff.mp h
    obtain ⟨start', members', inner', entries', rfl, henter', hentries', hlike⟩ :=
      like.object related henter hentries
    obtain ⟨left', hreads', hleft⟩ := fields.reads_like faithful.1 hlike hreads
    obtain ⟨kept', hkeeps', htable'⟩ := like.settleExtras hleft hkeeps htable
    exact Shape.decode_openRecord_iff.mpr ⟨start', members', inner', entries', values, left',
      kept', table, rfl, henter', hentries', hreads', hkeeps', htable', rfl⟩

/-- The same for the fields of an object, with the members of no field. -/
theorem Fields.reads_like :
    {β : Type} → (fields : Fields β) → fields.AreFaithful → {depth depth' : Depth} →
    {entries entries' left : List (String × Node)} → {values : β} →
    EntriesLike (R depth depth') entries entries' → fields.Reads depth entries values left →
    ∃ left', fields.Reads depth' entries' values left' ∧
      EntriesLike (R depth depth') left left'
  | _, .done, _, _, _, _, entries', _, _, related, h => ⟨entries', rfl, h ▸ related⟩
  | _, .required key shape rest, faithful, depth, depth', _, _, _, _, related, h => by
    obtain ⟨hvalue, hrest⟩ := h
    obtain ⟨left', hrest', hleft⟩ := rest.reads_like faithful.2 (related.besides key) hrest
    exact ⟨left', ⟨(shape.respects faithful.1 depth depth').only (related.under key) hvalue,
      hrest'⟩, hleft⟩
  | _, .defaulted key shape _ rest, faithful, depth, depth', _, _, _, _, related, h => by
    obtain ⟨hvalue, hrest⟩ := h
    obtain ⟨left', hrest', hleft⟩ := rest.reads_like faithful.2.2 (related.besides key) hrest
    exact ⟨left', ⟨(shape.respects faithful.1 depth depth').gives (related.under key) hvalue,
      hrest'⟩, hleft⟩
  | _, .optional key shape rest, faithful, depth, depth', _, _, _, _, related, h => by
    obtain ⟨hvalue, hrest⟩ := h
    obtain ⟨left', hrest', hleft⟩ := rest.reads_like faithful.2 (related.besides key) hrest
    have hshape := like.nullable (shape.respects faithful.1 depth depth')
    exact ⟨left', ⟨hshape.gives (related.under key) hvalue, hrest'⟩, hleft⟩
  | _, .mark key rest, faithful, _, _, _, _, _, _, related, h => by
    obtain ⟨hvalue, hrest⟩ := h
    obtain ⟨left', hrest', hleft⟩ := rest.reads_like faithful (related.besides key) hrest
    exact ⟨left', ⟨like.respects_flag.gives (related.under key) hvalue, hrest'⟩, hleft⟩

/-- The same for the fields of a record that is written as an array. -/
theorem Fields.readsInOrder_like : {β : Type} → (fields : Fields β) → fields.AreFaithful →
    {depth depth' : Depth} → {nodes nodes' : List Node} → {values : β} →
    List.Forall₂ (R depth depth') nodes nodes' → fields.ReadsInOrder depth nodes values →
    fields.ReadsInOrder depth' nodes' values
  | _, .done, _, _, _, _, _, _, related, h => by
    cases h
    cases related
    rfl
  | _, .required _ shape rest, faithful, depth, depth', _, _, _, related, h =>
    ⟨(shape.respects faithful.1 depth depth').only (nodesLike_take_one related) h.1,
      rest.readsInOrder_like faithful.2 (List.forall₂_drop 1 related) h.2⟩
  | _, .defaulted _ shape _ rest, faithful, depth, depth', _, _, _, related, h =>
    ⟨(shape.respects faithful.1 depth depth').gives (nodesLike_take_one related) h.1,
      rest.readsInOrder_like faithful.2.2 (List.forall₂_drop 1 related) h.2⟩
  | _, .optional _ shape rest, faithful, depth, depth', _, _, _, related, h =>
    ⟨(like.nullable (shape.respects faithful.1 depth depth')).gives
      (nodesLike_take_one related) h.1,
      rest.readsInOrder_like faithful.2 (List.forall₂_drop 1 related) h.2⟩
  | _, .mark _ rest, faithful, _, _, _, _, _, related, h =>
    ⟨like.respects_flag.gives (nodesLike_take_one related) h.1,
      rest.readsInOrder_like faithful (List.forall₂_drop 1 related) h.2⟩
end

end Shapes

end Wire

end ApiSurface
