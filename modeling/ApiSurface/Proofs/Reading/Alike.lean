import ApiSurface.Proofs.Json.Pages
import ApiSurface.Proofs.Json.Sorted
import ApiSurface.Proofs.Reading.Likeness
import ApiSurface.Proofs.Reading.Passing

/-!
# Trees of values that say the same

Two trees are alike if the values that they have been read from say the same. They are of
the same kind then, and their parts are alike: the items of an array one by one, the members
of an object in some order. Since no key is repeated, the order of the members is not seen
once they have been put under their keys, and since no key is the embedding key, no value
depends on which member comes first.

## Main definitions

* `Node.Alike`, `EntriesAlike`: trees, and members of objects, that are alike.

## Main results

* `Node.Alike.array`, `Node.Alike.object`: the parts of trees that are alike.
* `Node.keptAlike`: values that are kept of trees that are alike are settled alike.
-/

namespace ApiSurface

open Json Wire

namespace Json

/-! ### One tree -/

/-- Bytes of items belong to characters if those of each item do. -/
theorem Items.flaw_of_nodes {items : Items} {nodes : List Node} (h : items.nodes? = some nodes)
    (each : ∀ node ∈ nodes, node.flaw = none) : items.flaw = none := by
  induction h using Items.rec_nodes with
  | close stop => rfl
  | item seen value rest nodes _ ih =>
    obtain ⟨hvalue, hrest⟩ := List.forall_mem_cons.mp each
    rw [Items.flaw, hvalue, ih hrest]
    rfl

/-- Members are passed over, and their bytes belong to characters, if that holds of all
their values. -/
theorem Members.Match.passes {members : Members} {R : Node → Written → Prop}
    {written : List (Lead × Written)} (h : members.Match R written)
    (each : ∀ member ∈ written, ∀ node, R node member.2 → node.skip = .ok () ∧
      node.flaw = none) :
    members.skip = .ok () ∧ members.flaw = none := by
  induction h with
  | close => exact ⟨rfl, rfl⟩
  | @member key _ _ value rest lead w written hkey hvalue _ ih =>
    obtain ⟨hfirst, hlater⟩ := List.forall_mem_cons.mp each
    obtain ⟨hskip, hflaw⟩ := hfirst value hvalue
    obtain ⟨hskips, hflaws⟩ := ih hlater
    constructor
    · rw [Members.skip, hskip]
      exact hskips
    · rw [Members.flaw, hkey.2, hflaw, hflaws]
      rfl

/-- A tree that has been read from a value is passed over, and its bytes belong to
characters. -/
theorem Node.Spells.passes {node : Node} {w : Written} (h : node.Spells w) :
    node.skip = .ok () ∧ node.flaw = none := by
  induction w using Written.rec_parts generalizing node with
  | null | bool b | number l =>
    cases h
    exact ⟨rfl, rfl⟩
  | text pieces =>
    cases h with
    | text hspelling => exact ⟨rfl, hspelling.2⟩
  | array gap written ih =>
    cases h with
    | @array _ items nodes _ _ hnodes hall =>
      have heach : ∀ node ∈ nodes, node.skip = .ok () ∧ node.flaw = none := by
        intro node hnode
        obtain ⟨item, hitem, hspells⟩ := Except.exists_of_forall₂ hall.flip hnode
        exact ih item hitem hspells
      exact ⟨Items.skip_of_nodes hnodes fun node hnode => (heach node hnode).1,
        Items.flaw_of_nodes hnodes fun node hnode => (heach node hnode).2⟩
  | object gap written ih =>
    cases h with
    | object hmatch =>
      exact hmatch.passes fun member hmember node hspells => ih member hmember hspells

/-! ### Members under their keys -/

/-- Whether an entry of an object has been read from a written member. -/
def EntryOf (entry : String × Node) (member : Lead × Written) : Prop :=
  spelled? member.1.key = some entry.1 ∧ entry.2.Spells member.2

section Entries

variable {members : Members} {written : List (Lead × Written)} {entries : List (String × Node)}

/-- The entries of an object have been read from its members, one by one. -/
theorem Members.Match.entryOf (h : members.Match Node.Spells written)
    (hentries : members.entries? = some entries) : List.Forall₂ EntryOf entries written := by
  induction h generalizing entries with
  | close =>
    cases hentries
    exact .nil
  | @member key _ _ value rest lead w written hkey hvalue _ ih =>
    rw [Members.entries?] at hentries
    cases hname : key.text with
    | error fault => simp [hname] at hentries
    | ok name =>
      simp only [hname, Option.map_eq_some_iff] at hentries
      obtain ⟨later, hlater, rfl⟩ := hentries
      exact .cons ⟨hkey.text_iff.mp hname, hvalue⟩ (ih hlater)

/-- An object has entries if all its keys have texts. -/
theorem Members.Match.exists_entries (h : members.Match Node.Spells written)
    (hkeys : ∀ member ∈ written, ∃ s, spelled? member.1.key = some s) :
    ∃ entries, members.entries? = some entries := by
  induction h with
  | close => exact ⟨[], rfl⟩
  | @member key _ _ value rest lead w written hkey hvalue _ ih =>
    obtain ⟨⟨s, hs⟩, hlater⟩ := List.forall_mem_cons.mp hkeys
    obtain ⟨entries, hentries⟩ := ih hlater
    exact ⟨(s, value) :: entries, by simp [Members.entries?, hkey.text_iff.mpr hs, hentries]⟩

/-- The keys of entries are the texts of the written keys. -/
theorem keysOf_eq (h : List.Forall₂ EntryOf entries written) :
    keysOf written = entries.map Prod.fst := by
  induction h with
  | nil => rfl
  | cons hentry _ ih =>
    rw [List.map_cons, ← ih]
    exact List.filterMap_cons_some hentry.1

end Entries

/-! ### Trees that are alike -/

/-- Whether two written values say the same, and no object of them repeats a key or has the
embedding key. -/
structure Written.Agree (w w' : Written) : Prop where
  same : w.SaysSame w'
  orderly : w.IsOrderly
  orderly' : w'.IsOrderly

namespace Written.Agree

/-- The items of arrays that agree do so one by one. -/
theorem array {gap : List Blank} {items : List (Margins × Written)} {w' : Written}
    (h : (Written.array gap items).Agree w') :
    ∃ gap' items', w' = .array gap' items' ∧
      List.Forall₂ (fun item item' => item.2.Agree item'.2) items items' := by
  obtain ⟨hsame, horderly, horderly'⟩ := h
  cases hsame with
  | array hitems =>
    rw [isOrderly_array_iff] at horderly horderly'
    exact ⟨_, _, rfl, (Except.forall₂_mem hitems).imp fun item item' h =>
      ⟨h.2.2, horderly item h.1, horderly' item' h.2.1⟩⟩

/-- The members of objects that agree do so in some order, with keys that stand for
the same texts. -/
theorem object {gap : List Blank} {members : List (Lead × Written)} {w' : Written}
    (h : (Written.object gap members).Agree w') :
    ∃ gap' ordered members', w' = .object gap' members' ∧ ordered.Perm members' ∧
      List.Forall₂ (fun member member' => stringUnits member.1.key =
        stringUnits member'.1.key ∧ member.2.Agree member'.2) members ordered := by
  obtain ⟨hsame, horderly, horderly'⟩ := h
  cases hsame with
  | @object _ _ _ ordered members' hkeys hvalues perm =>
    obtain ⟨-, -, heach⟩ := isOrderly_object_iff.mp horderly
    obtain ⟨-, -, heach'⟩ := isOrderly_object_iff.mp horderly'
    exact ⟨_, ordered, members', rfl, perm,
        (Except.forall₂_mem hvalues).mp (fun member member' h hkey =>
      ⟨hkey, h.2.2, heach member h.1, heach' member' (perm.mem_iff.mp h.2.1)⟩) hkeys⟩

end Written.Agree

/-- Whether two trees have been read from written values that agree. -/
def Node.Alike (node node' : Node) : Prop :=
  ∃ w w', node.Spells w ∧ node'.Spells w' ∧ w.Agree w'

theorem Node.Alike.symm {node node' : Node} (h : node.Alike node') : node'.Alike node := by
  obtain ⟨w, w', hspells, hspells', hsame, horderly, horderly'⟩ := h
  exact ⟨w', w, hspells', hspells, hsame.symm, horderly', horderly⟩

theorem Node.Alike.passes {node node' : Node} (h : node.Alike node') :
    node.skip = .ok () ∧ node.flaw = none := by
  obtain ⟨w, -, hspells, -⟩ := h
  exact hspells.passes

/-- Whether the entries of two objects are alike under their keys, of which none is repeated
or the embedding key. -/
structure EntriesAlike (entries entries' : List (String × Node)) : Prop
    extends EntriesLike Node.Alike entries entries' where
  lacks : ∀ entry ∈ entries, entry.1 ≠ embeddingKey

section Kinds

variable {node' : Node} {start : Nat}

theorem Node.Alike.null (h : (Node.null start).Alike node') :
    ∃ start', node' = .null start' := by
  obtain ⟨_, _, hspells, hspells', hsame, -, -⟩ := h
  cases hspells
  cases hsame
  cases hspells'
  exact ⟨_, rfl⟩

/-- What is `null` is `null` in any layout, and nothing else is. -/
theorem Node.Alike.isNull_iff {node : Node} (h : node.Alike node') :
    (∃ start, node = .null start) ↔ ∃ start, node' = .null start := by
  constructor
  · rintro ⟨start, rfl⟩
    exact h.null
  · rintro ⟨start, rfl⟩
    exact h.symm.null

theorem Node.Alike.bool {b : Bool} (h : (Node.bool b start).Alike node') :
    ∃ start', node' = .bool b start' := by
  obtain ⟨_, _, hspells, hspells', hsame, -, -⟩ := h
  cases hspells
  cases hsame
  cases hspells'
  exact ⟨_, rfl⟩

theorem Node.Alike.number {stop : Nat} {n : Number}
    (h : (Node.number start (.ok n) stop).Alike node') :
    ∃ start' stop', node' = .number start' (.ok n) stop' := by
  obtain ⟨_, _, hspells, hspells', hsame, -, -⟩ := h
  cases hspells with
  | number hvalue =>
    cases hsame
    cases hspells' with
    | number hvalue' =>
      rw [(Except.toOption_eq_iff.mp (hvalue.trans hvalue'.symm) n).mp rfl]
      exact ⟨_, _, rfl⟩

theorem Node.Alike.text {spelling : Spelling} {s : String}
    (h : (Node.text spelling).Alike node') (hs : spelling.text = .ok s) :
    ∃ spelling', node' = .text spelling' ∧ spelling'.text = .ok s := by
  obtain ⟨_, _, hspells, hspells', hsame, -, -⟩ := h
  cases hspells with
  | text hspelling =>
    cases hsame with
    | text hunits =>
      cases hspells' with
      | text hspelling' =>
        refine ⟨_, rfl, hspelling'.text_iff.mpr ?_⟩
        rw [← spelled?_congr hunits]
        exact hspelling.text_iff.mp hs

/-- The items of arrays that are alike are alike one by one. -/
theorem Node.Alike.array {items : Items} (h : (Node.array start items).Alike node') :
    ∃ start' items' nodes nodes', node' = .array start' items' ∧ items.nodes? = some nodes ∧
      items'.nodes? = some nodes' ∧ List.Forall₂ Node.Alike nodes nodes' := by
  obtain ⟨_, _, hspells, hspells', agree⟩ := h
  cases hspells with
  | array hnodes hall =>
    obtain ⟨gap', written', rfl, hagree⟩ := agree.array
    cases hspells' with
    | array hnodes' hall' =>
      refine ⟨_, _, _, _, rfl, hnodes, hnodes', ?_⟩
      exact (forall₂_of_given hall hall' hagree).imp fun _ _ ⟨item, item', h⟩ =>
        ⟨item.2, item'.2, h⟩

/-- The entries of objects that are alike are alike in some order. -/
theorem Node.Alike.object {members : Members} {entries : List (String × Node)}
    (h : (Node.object start members).Alike node')
    (hentries : members.entries? = some entries) :
    ∃ start' members' entries', node' = .object start' members' ∧
      members'.entries? = some entries' ∧ EntriesAlike entries entries' := by
  obtain ⟨_, _, hspells, hspells', agree⟩ := h
  cases hspells with
  | object hmatch =>
    obtain ⟨gap', ordered, written', rfl, perm, hagree⟩ := agree.object
    obtain ⟨hnodup, hlacks, -⟩ := isOrderly_object_iff.mp agree.orderly
    have hall := hmatch.entryOf hentries
    rw [keysOf_eq hall] at hnodup hlacks
    cases hspells' with
    | object hmatch' =>
      -- Each key on the other side has the units of one on this side, which has a text.
      have hspelled : ∀ member' ∈ written', ∃ s, spelled? member'.1.key = some s := by
        intro member' hmember'
        obtain ⟨member, hmember, hunits, -⟩ :=
          Except.exists_of_forall₂ hagree (perm.mem_iff.mpr hmember')
        obtain ⟨entry, -, hentry, -⟩ := Except.exists_of_forall₂ hall hmember
        exact ⟨entry.1, (spelled?_congr hunits).symm.trans hentry⟩
      obtain ⟨entries', hentries'⟩ := hmatch'.exists_entries hspelled
      obtain ⟨mid, hmid, hperm⟩ :=
        exists_perm_of_given hall (hmatch'.entryOf hentries') hagree perm
      have hrelated :
          List.Forall₂ (fun entry entry' => entry.1 = entry'.1 ∧ entry.2.Alike entry'.2)
            entries mid :=
        hmid.imp fun entry entry' ⟨member, member', ⟨hkey, hspells⟩, ⟨hkey', hspells'⟩, hunits,
            hagree⟩ =>
          ⟨Option.some.inj (hkey.symm.trans ((spelled?_congr hunits).trans hkey')),
            member.2, member'.2, hspells, hspells', hagree⟩
      refine ⟨_, _, entries', rfl, hentries',
        ⟨⟨mid, hrelated, hperm⟩, List.pairwise_map.mp hnodup⟩, ?_⟩
      intro entry hentry heq
      exact hlacks (List.mem_map.mpr ⟨entry, hentry, heq⟩)

end Kinds

/-! ### Keeping -/

/-- Whether an array or object may stand at a place does not depend on the place. -/
theorem Depth.enter_of_enter {depth inner : Depth} {start : Nat}
    (h : depth.enter start = .ok inner) (start' : Nat) : depth.enter start' = .ok inner := by
  cases depth with
  | unbounded => exact h
  | upTo n =>
    rw [Depth.enter] at h ⊢
    split at h
    · cases h
    · next hn => rw [if_neg hn, h]

/-- Objects with distinct keys are sorted alike if their sorted members only differ in
their order. -/
theorem sortedMembers_eq_of_perm {members members' : List (String × Value)}
    (distinct : members.Pairwise fun m m' => m.1 ≠ m'.1)
    (perm : (members.map fun m => (m.1, m.2.sorted)).Perm
      (members'.map fun m => (m.1, m.2.sorted))) :
    sortedMembers members [] = sortedMembers members' [] := by
  have hentries := sortedMembers_eq_entries members .empty
  have hentries' := sortedMembers_eq_entries members' .empty
  rw [show sortedMembers members [] = _ from hentries, show sortedMembers members' [] =
    _ from hentries']
  exact congrArg Table.entries (Table.ofList_eq_of_perm (List.pairwise_map.mpr distinct) perm)

/-- Whether a value is another one up to the order of members, and no object of it has the
embedding key. -/
def Value.SettlesLike (v v' : Value) : Prop :=
  v'.sorted = v.sorted ∧ v.Everywhere (Lacks embeddingKey)

/-- Whether a tree is kept as a value that settles like what is kept of any tree alike. -/
def Node.KeptAlike (node : Node) : Prop :=
  ∀ depth v node', node.Alike node' → node.keep depth = .ok v →
  ∃ v', node'.keep depth = .ok v' ∧ v.SettlesLike v'

/-- An array is kept alike if its items are. -/
theorem Node.keptAlike_array {start : Nat} {items : Items}
    (each : ∀ nodes, items.nodes? = some nodes → ∀ node ∈ nodes, node.KeptAlike) :
    (Node.array start items).KeptAlike := by
  intro depth v node' alike h
  obtain ⟨start', items', nodes, nodes', rfl, hnodes, hnodes', hall⟩ := alike.array
  obtain ⟨inner, _, values, henter, hsome, hkeep, rfl⟩ := Node.keep_array_iff.mp h
  cases hnodes.symm.trans hsome
  obtain ⟨values', hkeep', hlike⟩ := exists_forall₂_of_related (T := Value.SettlesLike)
    ((Except.forall₂_mem hall).imp fun _ _ h => And.intro h.1 h.2.2) hkeep
    fun node node' v _ h hv => each nodes hnodes node h.1 inner v node' h.2 hv
  have henter' := Depth.enter_of_enter henter start'
  refine ⟨.array values', Node.keep_array_iff.mpr ⟨inner, nodes', values', henter', hnodes',
    hkeep', rfl⟩, ?_, ?_⟩
  · rw [Value.sorted, Value.sorted, sortedItems_eq_map, sortedItems_eq_map,
      Except.map_eq_of_forall₂ (fun _ _ h => h.1) hlike]
  · refine Value.everywhere_array_iff.mpr ⟨trivial, fun item hitem => ?_⟩
    obtain ⟨_, -, hlike⟩ := Except.exists_of_forall₂ hlike.flip hitem
    exact hlike.2

/-- An object is kept alike if its values are. -/
theorem Node.keptAlike_object {start : Nat} {members : Members}
    (each : ∀ entries, members.entries? = some entries →
      ∀ entry ∈ entries, entry.2.KeptAlike) :
    (Node.object start members).KeptAlike := by
  intro depth v node' alike h
  obtain ⟨inner, entries, kept, henter, hentries, hkeep, rfl⟩ := Node.keep_object_iff.mp h
  obtain ⟨start', members', entries', rfl, hentries', halike⟩ := alike.object hentries
  obtain ⟨mid, kept', hlike, hperm, hkeep'⟩ := halike.exists_given
    (U := Keeps inner) (T := fun m m' => m.1 = m'.1 ∧ m.2.SettlesLike m'.2)
    hkeep fun e e' m he hkey hvalue hm => by
      obtain ⟨v', hv', hlike⟩ := each entries hentries e he inner m.2 e'.2 hvalue hm.2
      exact ⟨(m.1, v'), ⟨hkey.symm.trans hm.1, hv'⟩, rfl, hlike⟩
  have henter' := Depth.enter_of_enter henter start'
  refine ⟨.object kept', Node.keep_object_iff.mpr ⟨inner, entries', kept', henter', hentries',
    hkeep', rfl⟩, ?_, ?_⟩
  · let sortValue (m : String × Value) : String × Value := (m.1, m.2.sorted)
    have hsorted : mid.map sortValue = kept.map sortValue :=
      Except.map_eq_of_forall₂ (fun m m' h => Prod.ext h.1.symm h.2.1) hlike
    have hdistinct := halike.distinct_keys (hkeep.imp fun _ _ h => h.1)
    have hmembers := sortedMembers_eq_of_perm hdistinct (hsorted ▸ hperm.map sortValue)
    rw [Value.sorted, Value.sorted, hmembers]
  · refine Value.everywhere_object_iff.mpr ⟨fun member hmember => ?_, fun member hmember => ?_⟩
    · obtain ⟨entry, hentry, hkey, -⟩ := Except.exists_of_forall₂ hkeep hmember
      exact hkey ▸ halike.lacks entry hentry
    · obtain ⟨_, -, -, hlike⟩ := Except.exists_of_forall₂ hlike.flip hmember
      exact hlike.2

/-- **Keeping.** What is kept of a tree settles like what is kept of any tree alike. -/
theorem Node.keptAlike (node : Node) : node.KeptAlike := by
  induction node using Node.rec_parts with
  | null start =>
    rintro depth v node' alike ⟨⟩
    obtain ⟨start', rfl⟩ := alike.null
    exact ⟨.null, rfl, rfl, Value.everywhere_null_iff.mpr trivial⟩
  | bool b start =>
    rintro depth v node' alike ⟨⟩
    obtain ⟨start', rfl⟩ := alike.bool
    exact ⟨.bool b, rfl, rfl, Value.everywhere_bool_iff.mpr trivial⟩
  | number start value stop =>
    intro depth v node' alike h
    obtain ⟨n, rfl, rfl⟩ := Except.map_eq_ok_iff.mp h
    obtain ⟨start', stop', rfl⟩ := alike.number
    exact ⟨.number n, rfl, rfl, Value.everywhere_number_iff.mpr trivial⟩
  | text spelling =>
    intro depth v node' alike h
    obtain ⟨s, hs, rfl⟩ := Except.map_eq_ok_iff.mp h
    obtain ⟨spelling', rfl, hs'⟩ := alike.text hs
    exact ⟨.text s, Except.map_eq_ok_iff.mpr ⟨s, hs', rfl⟩, rfl,
      Value.everywhere_text_iff.mpr trivial⟩
  | array start items each => exact Node.keptAlike_array each
  | object start members each => exact Node.keptAlike_object each
  | broken start blame | brokenText blame | missing stop =>
    rintro depth v node' alike ⟨⟩

end Json

end ApiSurface
