import ApiSurface.Proofs.Json.Values
import ApiSurface.Proofs.Reading.Trees

/-!
# Settled values

What a record keeps of a text is settled: its numbers have at most 64 bits if they are
integers, and the members of its objects are in key order. This holds because every numeral
of a text is read as such a number, and because members are collected in key order wherever
embedded texts are opened. A settled value that embeds no text is settled as it is.

## Main results

* `Node.IsOfWords`, `Document.isOfWords_ofBytes`: the integers of a text have at most 64 bits.
* `Value.isSettled_of_settle`: settling gives settled values.
* `Value.settle_of_isSettled`: settling again changes nothing.
-/

namespace ApiSurface.Json

/-! ### Numbers of a text -/

mutual
/-- Whether the integers of a node have at most 64 bits. -/
def Node.IsOfWords : Node → Prop
  | .number _ value _ => ∀ i, value = .ok (.integer i) → IsWord i
  | .array _ items => items.AreOfWords
  | .object _ members => members.AreOfWords
  | _ => True

/-- Whether the integers of some items have at most 64 bits. -/
def Items.AreOfWords : Items → Prop
  | .item _ value rest => value.IsOfWords ∧ rest.AreOfWords
  | _ => True

/-- Whether the integers of some members have at most 64 bits. -/
def Members.AreOfWords : Members → Prop
  | .member _ _ value _ rest => value.IsOfWords ∧ rest.AreOfWords
  | _ => True
end

/-- The digits that are taken of a numeral fit a word. -/
theorem absorb_le {n : Nat} (h : n ≤ Decimal.maxWord) (digits : List Nat) :
    (Decimal.absorb n digits).1 ≤ Decimal.maxWord := by
  induction digits generalizing n with
  | nil => exact h
  | cons d digits ih =>
    rw [Decimal.absorb]
    split
    · next hfits => exact ih hfits
    · exact h

theorem isWord_of_integral {negative : Bool} {n : Nat} {i : Int} (h : n ≤ Decimal.maxWord)
    (hi : integral negative n = .integer i) : IsWord i := by
  rw [Decimal.maxWord] at h
  unfold integral at hi
  split at hi
  · split at hi
    · cases hi
    · next hfits =>
      cases hi
      simp only [Bool.or_eq_true, decide_eq_true_eq, not_or] at hfits
      exact ⟨by omega, by rw [Decimal.maxWord]; omega⟩
  · cases hi
    exact ⟨by omega, by rw [Decimal.maxWord]; omega⟩

theorem scaled_ne_integer {l : Numeral} {n : Nat} {e i : Int} :
    Numeral.value.scaled l n e ≠ .ok (.integer i) := by
  rw [Numeral.value.scaled]
  split <;> simp [signed]

/-- An integer that a numeral denotes has at most 64 bits. -/
theorem isWord_of_value {l : Numeral} {i : Int} (h : l.value = .ok (.integer i)) :
    IsWord i := by
  have habsorb := absorb_le (Nat.zero_le Decimal.maxWord) l.whole
  unfold Numeral.value at h
  dsimp only at h
  split at h
  · split at h
    · exact isWord_of_integral habsorb (by simpa using h)
    · exact absurd h scaled_ne_integer
  · split at h
    · exact absurd h scaled_ne_integer
    · split at h
      · exact absurd h scaled_ne_integer
      · split at h <;> simp [signed] at h

theorem isOfWords_numberNode (c : Cursor) : (numberNode c).1.IsOfWords := by
  unfold numberNode
  split
  · next numeral after _ =>
    intro i hi
    rw [numberAt] at hi
    split at hi
    · next n hvalue =>
      cases hi
      exact isWord_of_value hvalue
    · cases hi
  · trivial

theorem isOfWords_wordNode {letters : List UInt8} {node : Nat → Node}
    (h : ∀ start, (node start).IsOfWords) (c : Cursor) :
    (wordNode letters node c).1.IsOfWords := by
  unfold wordNode
  split
  · exact h _
  · trivial

theorem isOfWords_textNode (c : Cursor) : (textNode c).1.IsOfWords := by
  unfold textNode
  split <;> trivial

theorem areOfWords_itemsAfterBracket {more : Cursor → Items × Option Cursor}
    (h : ∀ c, (more c).1.AreOfWords) (c : Cursor) :
    (itemsAfterBracket more c).1.AreOfWords := by
  unfold itemsAfterBracket
  split
  · trivial
  · trivial
  · exact h c

theorem areOfWords_itemsAfterItem {more : Cursor → Items × Option Cursor}
    (h : ∀ c, (more c).1.AreOfWords) (c : Cursor) : (itemsAfterItem more c).1.AreOfWords := by
  unfold itemsAfterItem
  split
  · trivial
  · trivial
  · dsimp only
    split
    · trivial
    · exact h _
  · trivial

theorem areOfWords_membersAfterBrace {more : Cursor → Members × Option Cursor}
    (h : ∀ c, (more c).1.AreOfWords) (c : Cursor) :
    (membersAfterBrace more c).1.AreOfWords := by
  unfold membersAfterBrace
  split
  · trivial
  · trivial
  · exact h c

theorem areOfWords_membersAfterMember {more : Cursor → Members × Option Cursor}
    (h : ∀ c, (more c).1.AreOfWords) (c : Cursor) :
    (membersAfterMember more c).1.AreOfWords := by
  unfold membersAfterMember
  split
  · trivial
  · trivial
  · dsimp only
    split
    · trivial
    · trivial
    · exact h _
  · trivial

/-- The integers of what is read at a place have at most 64 bits. -/
theorem isOfWords_read (fuel : Nat) :
    (∀ c, (readValue fuel c).1.IsOfWords) ∧ (∀ c, (readItems fuel c).1.AreOfWords) ∧
      ∀ c, (readMembers fuel c).1.AreOfWords := by
  induction fuel with
  | zero => exact ⟨fun _ => trivial, fun _ => trivial, fun _ => trivial⟩
  | succ fuel ih =>
    obtain ⟨hvalue, hitems, hmembers⟩ := ih
    refine ⟨fun c => ?value, fun c => ?items, fun c => ?members⟩
    case value =>
      rw [readValue]
      split
      · trivial
      · exact isOfWords_wordNode (by intro; trivial) c
      · exact isOfWords_wordNode (by intro; trivial) c
      · exact isOfWords_wordNode (by intro; trivial) c
      · exact isOfWords_textNode c
      · exact areOfWords_itemsAfterBracket hitems _
      · exact areOfWords_membersAfterBrace hmembers _
      · split
        · exact isOfWords_numberNode c
        · trivial
    case items =>
      have hfirst := hvalue c
      rw [readItems]
      split
      · next hread =>
        rw [hread] at hfirst
        exact ⟨hfirst, trivial⟩
      · next hread =>
        rw [hread] at hfirst
        exact ⟨hfirst, areOfWords_itemsAfterItem hitems _⟩
    case members =>
      rw [readMembers]
      split
      · split
        · trivial
        · next key afterKey _ =>
          dsimp only
          split
          · have hfirst := hvalue afterKey.skipBlanks.next.skipBlanks
            split
            · next hread =>
              rw [hread] at hfirst
              exact ⟨hfirst, trivial⟩
            · next hread =>
              rw [hread] at hfirst
              exact ⟨hfirst, areOfWords_membersAfterMember hmembers _⟩
          · trivial
          · trivial
      · trivial

/-- The integers of a text have at most 64 bits. -/
theorem Document.isOfWords_ofBytes (text : List UInt8) :
    (Document.ofBytes text).root.IsOfWords := by
  obtain ⟨hvalue, -, -⟩ := isOfWords_read (2 * text.length + 2)
  exact hvalue (skipBlanks text 0)

/-! ### Values that are settled -/

/-- Whether a value is as a record keeps it. -/
structure Value.IsSettled (v : Value) : Prop where
  /-- Its integers have at most 64 bits. -/
  words : v.Everywhere Value.IsOfWords
  /-- The members of its objects are in key order. -/
  ordered : v.Everywhere Value.IsOrdered

namespace Value

theorem isSettled_null : null.IsSettled :=
  ⟨everywhere_null_iff.mpr trivial, everywhere_null_iff.mpr trivial⟩

theorem isSettled_bool (b : Bool) : (bool b).IsSettled :=
  ⟨everywhere_bool_iff.mpr trivial, everywhere_bool_iff.mpr trivial⟩

theorem isSettled_number {n : Number} (h : (number n).IsOfWords) : (number n).IsSettled :=
  ⟨everywhere_number_iff.mpr h, everywhere_number_iff.mpr trivial⟩

theorem isSettled_text (s : String) : (text s).IsSettled :=
  ⟨everywhere_text_iff.mpr trivial, everywhere_text_iff.mpr trivial⟩

/-- An array is settled if its items are. -/
theorem isSettled_array {items : List Value} (h : ∀ item ∈ items, item.IsSettled) :
    (array items).IsSettled :=
  ⟨everywhere_array_iff.mpr ⟨trivial, fun item hitem => (h item hitem).words⟩,
    everywhere_array_iff.mpr ⟨trivial, fun item hitem => (h item hitem).ordered⟩⟩

/-- An object is settled if its values are, and its members are in key order. -/
theorem isSettled_object_iff {members : List (String × Value)} :
    (object members).IsSettled ↔ KeysIncrease members ∧
      ∀ member ∈ members, member.2.IsSettled := by
  constructor
  · intro h
    obtain ⟨hordered, hmembers⟩ := everywhere_object_iff.mp h.ordered
    exact ⟨hordered, fun member hmember =>
      ⟨(everywhere_object_iff.mp h.words).2 member hmember, hmembers member hmember⟩⟩
  · rintro ⟨hordered, h⟩
    exact ⟨everywhere_object_iff.mpr ⟨trivial, fun member hmember => (h member hmember).words⟩,
      everywhere_object_iff.mpr ⟨hordered, fun member hmember => (h member hmember).ordered⟩⟩

theorem isSettled_object_nil : (object []).IsSettled := isSettled_object_iff.mpr ⟨.nil, nofun⟩

/-- A member is added to those of a settled object. -/
theorem IsSettled.insertEntry {members : List (String × Value)}
    (h : (object members).IsSettled) {v : Value} (hv : v.IsSettled) (key : String) :
    (object (insertEntry key v members)).IsSettled := by
  obtain ⟨hordered, hmembers⟩ := isSettled_object_iff.mp h
  refine isSettled_object_iff.mpr ⟨hordered.insertEntry, fun member hmember => ?_⟩
  obtain rfl | hold := mem_insertEntry hmember
  · exact hv
  · exact hmembers member hold

end Value

/-! ### Nodes that are kept -/

theorem isOfWords_of_map_number {value : Except Fault Number} {v : Value}
    (words : ∀ i, value = .ok (.integer i) → IsWord i) (h : value.map Value.number = .ok v) :
    ∃ n, v = .number n ∧ (Value.number n).IsOfWords := by
  obtain ⟨n, rfl, rfl⟩ := Except.map_eq_ok_iff.mp h
  refine ⟨n, rfl, ?_⟩
  cases n with
  | integer i => exact words i rfl
  | real x => trivial

/-- The items of a text are nodes of it. -/
theorem Items.isOfWords_of_nodes {items : Items} (words : items.AreOfWords) {nodes : List Node}
    (h : items.nodes? = some nodes) : ∀ node ∈ nodes, node.IsOfWords :=
  Items.forall_of_nodes (fun words => words) words h

/-- The values of the members of a text are nodes of it. -/
theorem Members.isOfWords_of_entries {members : Members} (words : members.AreOfWords)
    {entries : List (String × Node)} (h : members.entries? = some entries) :
    ∀ entry ∈ entries, entry.2.IsOfWords :=
  Members.forall_of_entries (fun _ words => words) words h

/-- Whether a property of arrays and objects is one of their parts, too. -/
structure Node.PassesToParts (P : Node → Prop) : Prop where
  items : ∀ {start items nodes}, P (.array start items) → items.nodes? = some nodes →
    ∀ node ∈ nodes, P node
  values : ∀ {start members entries}, P (.object start members) →
    members.entries? = some entries → ∀ entry ∈ entries, P entry.2

/-- What a property that passes to parts says of the value that a node is kept as holds
everywhere in the value. -/
theorem Node.everywhere_of_keep {P : Node → Prop} {Q : Value → Prop}
    (passes : Node.PassesToParts P)
    (holds : ∀ {depth node v}, P node → node.keep depth = .ok v → Q v) {depth : Depth}
    {node : Node} {v : Value} (hnode : P node) (h : node.keep depth = .ok v) :
    v.Everywhere Q := by
  have hself := holds hnode h
  induction node using Node.rec_parts generalizing depth v with
  | null start =>
    cases h
    exact Value.everywhere_null_iff.mpr hself
  | bool b start =>
    cases h
    exact Value.everywhere_bool_iff.mpr hself
  | number start value stop =>
    obtain ⟨n, -, rfl⟩ := Except.map_eq_ok_iff.mp h
    exact Value.everywhere_number_iff.mpr hself
  | text spelling =>
    obtain ⟨s, -, rfl⟩ := Except.map_eq_ok_iff.mp h
    exact Value.everywhere_text_iff.mpr hself
  | array start items ih =>
    obtain ⟨inner, nodes, values, -, hnodes, hvalues, rfl⟩ := Node.keep_array_iff.mp h
    refine Value.everywhere_array_iff.mpr ⟨hself, fun value hvalue => ?_⟩
    obtain ⟨node, hmem, hkeep⟩ := Except.exists_of_forall₂ hvalues hvalue
    have hpart := passes.items hnode hnodes node hmem
    exact ih nodes hnodes node hmem hpart hkeep (holds hpart hkeep)
  | object start members ih =>
    obtain ⟨inner, entries, kept, -, hentries, hkept, rfl⟩ := Node.keep_object_iff.mp h
    refine Value.everywhere_object_iff.mpr ⟨hself, fun member hmember => ?_⟩
    obtain ⟨entry, hmem, -, hkeep⟩ := Except.exists_of_forall₂ hkept hmember
    have hpart := passes.values hnode hentries entry hmem
    exact ih entries hentries entry hmem hpart hkeep (holds hpart hkeep)
  | broken start blame | brokenText blame | missing stop => cases h

/-- A node is kept as a value whose integers have at most 64 bits. -/
theorem Node.isOfWords_of_keep {depth : Depth} {node : Node} {v : Value}
    (words : node.IsOfWords) (h : node.keep depth = .ok v) : v.Everywhere Value.IsOfWords := by
  refine Node.everywhere_of_keep ⟨fun words => Items.isOfWords_of_nodes words,
    fun words => Members.isOfWords_of_entries words⟩ ?_ words h
  intro depth node v words h
  cases v with
  | number n =>
    obtain ⟨start, stop, rfl⟩ := Node.hasForm_of_keep h
    obtain ⟨_, ⟨⟩, hn⟩ := isOfWords_of_map_number words rfl
    exact hn
  | _ => trivial

/-! ### Embedded texts that are opened -/

section Resolve

variable {openText : String → Except Cause Value}

mutual
/-- A node is resolved to a settled value if embedded texts are opened as such. -/
theorem Node.isSettled_of_resolve (opens : ∀ s v, openText s = .ok v → v.IsSettled)
    {depth : Depth} :
    (node : Node) → node.IsOfWords → {v : Value} → node.resolve openText depth = .ok v →
      v.IsSettled
  | .null _, _, _, h => by
    cases h
    exact Value.isSettled_null
  | .bool b _, _, _, h => by
    cases h
    exact Value.isSettled_bool b
  | .number _ value _, words, v, h => by
    obtain ⟨n, rfl, hn⟩ := isOfWords_of_map_number words h
    exact Value.isSettled_number hn
  | .text spelling, _, v, h => by
    obtain ⟨s, -, rfl⟩ := Except.map_eq_ok_iff.mp h
    exact Value.isSettled_text s
  | .array start items, words, v, h => by
    simp only [Node.resolve, Except.bind_eq_ok_iff, Except.pure_eq_ok_iff] at h
    obtain ⟨inner, -, values, hvalues, rfl⟩ := h
    exact Value.isSettled_array (items.areSettled_of_resolve opens words hvalues)
  | .object start members, words, v, h => by
    simp only [Node.resolve, Except.bind_eq_ok_iff] at h
    obtain ⟨inner, -, embedded, -, h⟩ := h
    cases embedded with
    | some text =>
      simp only [Except.bind_eq_ok_iff, Except.pure_eq_ok_iff, Except.mapError_eq_ok_iff] at h
      obtain ⟨value, hvalue, _, -, rfl⟩ := h
      exact opens text value hvalue
    | none =>
      simp only [Except.bind_eq_ok_iff, Except.pure_eq_ok_iff] at h
      obtain ⟨entries, hentries, rfl⟩ := h
      exact members.areSettled_of_resolve opens words Value.isSettled_object_nil hentries
  | .broken _ _, _, _, h | .brokenText _, _, _, h | .missing _, _, _, h => by cases h

/-- The same for items. -/
theorem Items.areSettled_of_resolve (opens : ∀ s v, openText s = .ok v → v.IsSettled)
    {depth : Depth} :
    (items : Items) → items.AreOfWords → {values : List Value} →
      items.resolve openText depth = .ok values → ∀ v ∈ values, v.IsSettled
  | .item _ node rest, words, values, h => by
    simp only [Items.resolve, Except.bind_eq_ok_iff, Except.pure_eq_ok_iff] at h
    obtain ⟨value, hvalue, later, hlater, rfl⟩ := h
    exact List.forall_mem_cons.mpr
      ⟨node.isSettled_of_resolve opens words.1 hvalue,
        rest.areSettled_of_resolve opens words.2 hlater⟩
  | .close _, _, _, h => by
    cases h
    nofun
  | .trailing _, _, _, h | .stray _, _, _, h | .ended _, _, _, h => by cases h

/-- The same for members, added to those collected so far. -/
theorem Members.areSettled_of_resolve (opens : ∀ s v, openText s = .ok v → v.IsSettled)
    {depth : Depth} : (members : Members) → members.AreOfWords →
      {collected entries : List (String × Value)} → (Value.object collected).IsSettled →
        members.resolve openText depth collected = .ok entries →
        (Value.object entries).IsSettled
  | .member key _ node _ rest, words, collected, entries, settled, h => by
    simp only [Members.resolve, Except.bind_eq_ok_iff] at h
    obtain ⟨name, -, value, hvalue, hlater⟩ := h
    have hnode := node.isSettled_of_resolve opens words.1 hvalue
    exact rest.areSettled_of_resolve opens words.2 (settled.insertEntry hnode name) hlater
  | .close _, _, _, _, settled, h => by
    cases h
    exact settled
  | .halted key _ _, _, _, _, _, h => by simp [Members.resolve, Members.finish] at h
  | .badKey _, _, _, _, _, h | .noKey _, _, _, _, _, h | .trailing _, _, _, _, _, h
  | .unfinished _, _, _, _, _, h | .stray _, _, _, _, _, h | .ended _, _, _, _, _,
      h => by cases h
end

end Resolve

/-- An embedded text spells a settled value. -/
theorem isSettled_of_openedWithin (bound : Nat) {s : String} {v : Value}
    (h : openedWithin bound s = .ok v) : v.IsSettled := by
  induction bound generalizing s v with
  | zero => cases h
  | succ bound ih =>
    simp only [openedWithin, Document.use, Except.mapError_eq_ok_iff,
      Except.bind_eq_ok_iff] at h
    obtain ⟨value, hvalue, hend⟩ := h
    have hsettled :=
      Node.isSettled_of_resolve (fun _ _ => ih) _ (Document.isOfWords_ofBytes _) hvalue
    split at hend
    · cases hend
    · cases hend
      exact hsettled

/-! ### Values that have been settled -/

theorem isSettled_of_embeddedValue {members : List (String × Value)} {v : Value}
    (h : embeddedValue? members = .ok (some v)) : v.IsSettled := by
  match members with
  | [] => cases h
  | (key, value) :: rest =>
    simp only [embeddedValue?] at h
    split at h
    · cases h
    · simp only [Except.bind_eq_ok_iff] at h
      obtain ⟨s, -, w, hw, h⟩ := h
      split at h
      · cases h
        exact isSettled_of_openedWithin _ hw
      · cases h

mutual
/-- What is settled is settled. -/
theorem Value.isSettled_of_settle : (v : Value) → v.Everywhere Value.IsOfWords → {w : Value} →
    v.settle = .ok w → w.IsSettled
  | .null, _, _, h => by
    cases h
    exact Value.isSettled_null
  | .bool b, _, _, h => by
    cases h
    exact Value.isSettled_bool b
  | .number n, words, _, h => by
    cases h
    exact Value.isSettled_number words.self
  | .text s, _, _, h => by
    cases h
    exact Value.isSettled_text s
  | .array items, words, w, h => by
    simp only [Value.settle, Except.bind_eq_ok_iff, Except.pure_eq_ok_iff] at h
    obtain ⟨values, hvalues, rfl⟩ := h
    exact Value.isSettled_array
      (areSettled_of_settleItems items (Value.everywhere_array_iff.mp words).2 hvalues)
  | .object members, words, w, h => by
    simp only [Value.settle, Except.bind_eq_ok_iff] at h
    obtain ⟨embedded, hembedded, h⟩ := h
    cases embedded with
    | some value =>
      cases h
      exact isSettled_of_embeddedValue hembedded
    | none =>
      simp only [Except.bind_eq_ok_iff, Except.pure_eq_ok_iff] at h
      obtain ⟨entries, hentries, rfl⟩ := h
      exact areSettled_of_settleMembers members (Value.everywhere_object_iff.mp words).2
        Value.isSettled_object_nil hentries

/-- The same for items. -/
theorem areSettled_of_settleItems : (items : List Value) →
    (∀ item ∈ items, item.Everywhere Value.IsOfWords) → {values : List Value} →
      settleItems items = .ok values → ∀ v ∈ values, v.IsSettled
  | [], _, _, h => by
    cases h
    nofun
  | item :: items, words, values, h => by
    simp only [settleItems, Except.bind_eq_ok_iff, Except.pure_eq_ok_iff] at h
    obtain ⟨value, hvalue, later, hlater, rfl⟩ := h
    obtain ⟨hitem, hitems⟩ := List.forall_mem_cons.mp words
    exact List.forall_mem_cons.mpr
      ⟨item.isSettled_of_settle hitem hvalue, areSettled_of_settleItems items hitems hlater⟩

/-- The same for members, added to those collected so far. -/
theorem areSettled_of_settleMembers : (members : List (String × Value)) →
    (∀ member ∈ members, member.2.Everywhere Value.IsOfWords) →
      {collected entries : List (String × Value)} → (Value.object collected).IsSettled →
        settleMembers members collected = .ok entries → (Value.object entries).IsSettled
  | [], _, _, _, settled, h => by
    cases h
    exact settled
  | (key, value) :: members, words, collected, entries, settled, h => by
    simp only [settleMembers, Except.bind_eq_ok_iff] at h
    obtain ⟨w, hw, hlater⟩ := h
    obtain ⟨hvalue, hmembers⟩ := List.forall_mem_cons.mp words
    have hsettled := settled.insertEntry (value.isSettled_of_settle hvalue hw) key
    exact areSettled_of_settleMembers members hmembers hsettled hlater
end

/-! ### Settling a settled value -/

/-- An object without the embedding key embeds no text. -/
theorem embeddedValue_of_lacks {members : List (String × Value)}
    (h : (Value.object members).Lacks embeddingKey) : embeddedValue? members = .ok none := by
  match members with
  | [] => rfl
  | (key, value) :: rest =>
    obtain ⟨hkey, -⟩ := List.forall_mem_cons.mp h
    simp only [embeddedValue?]
    rw [if_pos hkey]
    rfl

/-- A member with a greater key than all others is added at the end. -/
theorem insertEntry_eq_append {key : String} {value : Value}
    {collected : List (String × Value)}
    (h : ∀ member ∈ collected, compare member.1 key = .lt) :
    insertEntry key value collected = collected ++ [(key, value)] := by
  induction collected with
  | nil => rfl
  | cons member collected ih =>
    obtain ⟨hmember, hcollected⟩ := List.forall_mem_cons.mp h
    have hgt : compare key member.1 = .gt := Std.OrientedCmp.gt_of_lt hmember
    rw [insertEntry, hgt]
    exact congrArg (member :: ·) (ih hcollected)

mutual
/-- A settled value that embeds no text is settled as it is. -/
theorem Value.settle_of_isSettled : (v : Value) → v.Everywhere Value.IsOrdered →
    v.Everywhere (Value.Lacks embeddingKey) → v.settle = .ok v
  | .null, _, _ | .bool _, _, _ | .number _, _, _ | .text _, _, _ => rfl
  | .array items, ordered, lacks => by
    rw [Value.settle, settleItems_of_areSettled items (Value.everywhere_array_iff.mp ordered).2
      (Value.everywhere_array_iff.mp lacks).2]
    rfl
  | .object members, ordered, lacks => by
    obtain ⟨hkeys, hordered⟩ := Value.everywhere_object_iff.mp ordered
    obtain ⟨hlacks, hvalues⟩ := Value.everywhere_object_iff.mp lacks
    have hmembers := settleMembers_of_areSettled members [] hkeys hordered hvalues
    simp only [Value.settle, embeddedValue_of_lacks hlacks, Except.ok_bind, hmembers]
    rfl

/-- The same for items. -/
theorem settleItems_of_areSettled : (items : List Value) →
    (∀ item ∈ items, item.Everywhere Value.IsOrdered) →
    (∀ item ∈ items, item.Everywhere (Value.Lacks embeddingKey)) →
      settleItems items = .ok items
  | [], _, _ => rfl
  | item :: items, ordered, lacks => by
    obtain ⟨hitem, hitems⟩ := List.forall_mem_cons.mp ordered
    obtain ⟨hlacks, hlater⟩ := List.forall_mem_cons.mp lacks
    rw [settleItems, item.settle_of_isSettled hitem hlacks,
      settleItems_of_areSettled items hitems hlater]
    rfl

/-- The same for members, after those collected so far. -/
theorem settleMembers_of_areSettled : (members collected : List (String × Value)) →
    KeysIncrease (collected ++ members) →
    (∀ member ∈ members, member.2.Everywhere Value.IsOrdered) →
    (∀ member ∈ members, member.2.Everywhere (Value.Lacks embeddingKey)) →
      settleMembers members collected = .ok (collected ++ members)
  | [], collected, _, _, _ => by rw [List.append_nil]; rfl
  | (key, value) :: members, collected, keys, ordered, lacks => by
    obtain ⟨hvalue, hmembers⟩ := List.forall_mem_cons.mp ordered
    obtain ⟨hlacks, hlater⟩ := List.forall_mem_cons.mp lacks
    have habove : ∀ member ∈ collected, compare member.1 key = .lt := fun member hmember =>
      (List.pairwise_append.mp keys).2.2 member hmember (key, value) List.mem_cons_self
    have happend :
        collected ++ (key, value) :: members = collected ++ [(key, value)] ++ members := by
      rw [List.append_assoc, List.singleton_append]
    simp only [settleMembers, value.settle_of_isSettled hvalue hlacks, Except.ok_bind,
      insertEntry_eq_append habove]
    rw [happend] at keys ⊢
    exact settleMembers_of_areSettled members _ keys hmembers hlater
end

end ApiSurface.Json
