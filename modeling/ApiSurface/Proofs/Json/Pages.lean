import ApiSurface.Proofs.Json.Blanks
import ApiSurface.Proofs.Json.Spelled
import ApiSurface.Proofs.Reading.Walks

/-!
# Texts as written

The tree that is read from a text has the form of the written value in it: an array has a
node for each item, an object a member for each member, in the same order, and blanks have
left no trace but the places. What a string spells and what a numeral denotes is told by the
pieces and the parts, even if it is nothing.

## Main definitions

* `Node.Spells`: trees that have the form of a written value.

## Main results

* `Written.isRead`: a written value is read as a tree of its form, whatever follows it.
* `Page.document`: the document of a text.
-/

namespace ApiSurface.Json

open Text

/-! ### The form of a written value -/

/-- Whether members are those of a written object, one by one, with values that are
related as given. -/
inductive Members.Match (R : Node → Written → Prop) : Members → List (Lead × Written) → Prop
  | close {stop : Nat} : Match R (.close stop) []
  | member {key : Spelling} {pause after : Nat} {value : Node} {rest : Members} {lead : Lead}
      {w : Written} {members : List (Lead × Written)} :
      key.Spells lead.key → R value w → Match R rest members →
      Match R (.member key pause value after rest) ((lead, w) :: members)

/-- Whether a tree has the form of a written value. -/
inductive Node.Spells : Node → Written → Prop
  | null {start : Nat} : Spells (.null start) .null
  | bool {b : Bool} {start : Nat} : Spells (.bool b start) (.bool b)
  | number {start stop : Nat} {value : Except Fault Number} {l : WrittenNumeral} :
      value.toOption = l.numeral.value.toOption → Spells (.number start value stop) (.number l)
  | text {spelling : Spelling} {pieces : List Piece} :
      spelling.Spells pieces → Spells (.text spelling) (.text pieces)
  | array {start : Nat} {items : Items} {nodes : List Node} {gap : List Blank}
      {written : List (Margins × Written)} :
      items.nodes? = some nodes →
      List.Forall₂ (fun node item => Spells node item.2) nodes written →
      Spells (.array start items) (.array gap written)
  | object {start : Nat} {members : Members} {gap : List Blank}
      {written : List (Lead × Written)} :
      members.Match Spells written → Spells (.object start members) (.object gap written)

/-! ### The bytes of a written value -/

theorem encode_array (gap : List Blank) (items : List (Margins × Written)) :
    encode (Written.array gap items).chars =
      91 :: (encode (gapChars gap) ++ encode (writtenItems [] items)) := by
  rw [Written.chars, encode_append, encode_cons, List.append_assoc]
  rfl

theorem encode_object (gap : List Blank) (members : List (Lead × Written)) :
    encode (Written.object gap members).chars =
      123 :: (encode (gapChars gap) ++ encode (writtenMembers [] members)) := by
  rw [Written.chars, encode_append, encode_cons, List.append_assoc]
  rfl

/-- The bytes of an item after its opening blanks, and of the items after it. -/
def itemBytes (margins : Margins) (item : Written) (items : List (Margins × Written)) :
    List UInt8 :=
  encode item.chars ++ (encode (gapChars margins.after) ++ encode (writtenItems [','] items))

theorem encode_writtenItems (mark : List Char) (margins : Margins) (item : Written)
    (items : List (Margins × Written)) :
    encode (writtenItems mark ((margins, item) :: items)) =
      encode mark ++ (encode (gapChars margins.before) ++ itemBytes margins item items) := by
  simp only [writtenItems, itemBytes, encode_append, List.append_assoc]

/-- The bytes of a member after its opening blanks, and of the members after it. -/
def memberBytes (lead : Lead) (value : Written) (members : List (Lead × Written)) :
    List UInt8 :=
  encode (stringChars lead.key) ++ (encode (gapChars lead.beforeColon) ++ 58 ::
    (encode (gapChars lead.afterColon) ++
      (encode value.chars ++ (encode (gapChars lead.after) ++
      encode (writtenMembers [','] members)))))

theorem encode_writtenMembers (mark : List Char) (lead : Lead) (value : Written)
    (members : List (Lead × Written)) :
    encode (writtenMembers mark ((lead, value) :: members)) =
      encode mark ++ (encode (gapChars lead.before) ++ memberBytes lead value members) := by
  simp only [writtenMembers, memberBytes, encode_append, encode_cons, List.append_assoc,
    List.cons_append]
  rfl

/-- After an item a break follows. -/
theorem isBreak_writtenItems (items : List (Margins × Written)) (rest : List UInt8) :
    IsBreak (encode (writtenItems [','] items) ++ rest) := by
  cases items with
  | nil => exact isBreak_cons (.inr (.inl rfl)) rest
  | cons item items =>
    rw [encode_writtenItems]
    exact isBreak_cons (.inl rfl) _

/-- After a member a break follows. -/
theorem isBreak_writtenMembers (members : List (Lead × Written)) (rest : List UInt8) :
    IsBreak (encode (writtenMembers [','] members) ++ rest) := by
  cases members with
  | nil => exact isBreak_cons (.inr (.inr rfl)) rest
  | cons member members =>
    rw [encode_writtenMembers]
    exact isBreak_cons (.inl rfl) _

theorem begins_stringChars (pieces : List Piece) : Begins (encode (stringChars pieces)) := by
  rw [encode_stringChars]
  exact ⟨34, _, rfl, by decide, by decide, by decide⟩

/-- A numeral begins with a minus sign or a digit. -/
theorem WrittenNumeral.exists_encode_chars (l : WrittenNumeral) :
    ∃ b bs, encode l.chars = b :: bs ∧ (b = 45 ∨ isDigit b) := by
  rw [chars]
  cases l.negative with
  | true => exact ⟨45, _, rfl, .inl rfl⟩
  | false =>
    rw [if_neg Bool.false_ne_true, List.nil_append, encode_append, l.whole.encode_chars,
      List.cons_append]
    exact ⟨_, _, rfl, .inr l.whole.isDigit_firstByte⟩

/-- A written value begins as a value does. -/
theorem Written.begins (w : Written) : Begins (encode w.chars) := by
  cases w with
  | null => exact ⟨110, _, rfl, by decide, by decide, by decide⟩
  | bool b => cases b <;> exact ⟨_, _, rfl, by decide, by decide, by decide⟩
  | number l =>
    obtain ⟨b, bs, hbs, hb⟩ := l.exists_encode_chars
    rw [Written.chars, hbs]
    exact begins_of_numeral hb bs
  | text pieces => exact begins_stringChars pieces
  | array gap items =>
    rw [encode_array]
    exact ⟨91, _, rfl, by decide, by decide, by decide⟩
  | object gap members =>
    rw [encode_object]
    exact ⟨123, _, rfl, by decide, by decide, by decide⟩

/-! ### Items -/

/-- Whether a written value is read as a tree of its form, by enough readers. -/
def Written.IsRead (w : Written) : Prop :=
  ∀ fuel rest offset, 2 * (encode w.chars).length ≤ fuel → EndsNumeral rest →
    ∃ node stop, readValue fuel ⟨encode w.chars ++ rest, offset⟩ = (node, some ⟨rest, stop⟩) ∧
      node.Spells w

/-- One item and the blanks after it. -/
theorem readItems_item {item : Written} (hitem : item.IsRead) (gap : List Blank) {fuel : Nat}
    (hfuel : 2 * (encode item.chars).length ≤ fuel) {rest : List UInt8} (hrest : IsBreak rest)
    (offset : Nat) :
    ∃ seen node stop,
      readItems (fuel + 1) ⟨encode item.chars ++ (encode (gapChars gap) ++ rest), offset⟩ =
        (let (later, stop) := itemsAfterItem (readItems fuel) ⟨rest, stop⟩
        (.item seen node later, stop)) ∧ node.Spells item := by
  obtain ⟨node, stop, hread, hspells⟩ := hitem fuel _ offset hfuel (hrest.endsNumeral.gap gap)
  have hskip :
      Cursor.skipBlanks ⟨encode (gapChars gap) ++ rest, stop⟩ = ⟨rest, stop + gap.length⟩ :=
    (skipBlanks_gap gap rest stop).trans (hrest.skipBlanks _)
  refine ⟨Cursor.seen ⟨encode item.chars ++ (encode (gapChars gap) ++ rest), offset⟩, node,
    stop + gap.length, ?_, hspells⟩
  simp only [readItems, hread, hskip]

/-- Items are read as they are written if each of them is. -/
theorem readItems_written {margins : Margins} {item : Written}
    {items : List (Margins × Written)} (h : ∀ i ∈ (margins, item) :: items, i.2.IsRead)
    {fuel : Nat} (hfuel : 2 * (itemBytes margins item items).length ≤ fuel) (rest : List UInt8)
    (offset : Nat) :
    ∃ read stop nodes, readItems fuel ⟨itemBytes margins item items ++ rest, offset⟩ =
        (read, some ⟨rest, stop⟩) ∧ read.nodes? = some nodes ∧
      List.Forall₂ (fun node i => node.Spells i.2) nodes ((margins, item) :: items) := by
  -- One more reader is under way for each item, and each item is written with at least the
  -- byte after it.
  induction items generalizing margins item fuel offset with
  | nil =>
    have hitem : item.IsRead := h _ List.mem_cons_self
    rw [itemBytes, List.length_append, List.length_append] at hfuel
    have hclose : (encode (writtenItems [','] [])).length = 1 := rfl
    obtain ⟨fuel, rfl⟩ : ∃ k, fuel = k + 1 := ⟨fuel - 1, by omega⟩
    obtain ⟨seen, node, stop, hread, hspells⟩ := readItems_item hitem margins.after
      (show _ ≤ fuel by omega) (isBreak_writtenItems [] rest) offset
    rw [itemBytes, List.append_assoc, List.append_assoc, hread]
    exact ⟨_, _, [node], rfl, rfl, .cons hspells .nil⟩
  | cons next items ih =>
    obtain ⟨next_margins, next⟩ := next
    obtain ⟨hitem : item.IsRead, hitems⟩ := List.forall_mem_cons.mp h
    rw [itemBytes, List.length_append, List.length_append, encode_writtenItems,
      List.length_append, List.length_append] at hfuel
    have hcomma : (encode [',']).length = 1 := rfl
    obtain ⟨fuel, rfl⟩ : ∃ k, fuel = k + 1 := ⟨fuel - 1, by omega⟩
    obtain ⟨seen, node, stop, hread, hspells⟩ := readItems_item hitem margins.after
      (show _ ≤ fuel by omega)
      (isBreak_writtenItems ((next_margins, next) :: items) rest) offset
    obtain ⟨later, stop', nodes, hlater, hnodes, hall⟩ := ih hitems (show _ ≤ fuel by omega)
      (stop + 1 + next_margins.before.length)
    have hbegins : Begins (itemBytes next_margins next items ++ rest) := by
      rw [itemBytes, List.append_assoc]
      exact next.begins.append _
    have hnext : itemsAfterItem (readItems fuel)
        ⟨encode (writtenItems [','] ((next_margins, next) :: items)) ++ rest, stop⟩ =
          (later, some ⟨rest, stop'⟩) := by
      rw [encode_writtenItems, List.append_assoc, List.append_assoc, ← hlater]
      exact hbegins.itemsAfterComma (readItems fuel) next_margins.before stop
    rw [itemBytes, List.append_assoc, List.append_assoc, hread, hnext]
    refine ⟨_, _, node :: nodes, rfl, ?_, .cons hspells hall⟩
    rw [Items.nodes?, hnodes, Option.map_some]

/-! ### Members -/

/-- One member and the blanks after it. -/
theorem readMembers_member (lead : Lead) {value : Written} (hvalue : value.IsRead) {fuel : Nat}
    (hfuel : 2 * (encode value.chars).length ≤ fuel) {rest : List UInt8} (hrest : IsBreak rest)
    (offset : Nat) :
    ∃ spelling pause node after stop,
      readMembers (fuel + 1) ⟨encode (stringChars lead.key) ++
        (encode (gapChars lead.beforeColon) ++ 58 ::
          (encode (gapChars lead.afterColon) ++
            (encode value.chars ++ (encode (gapChars lead.after) ++ rest)))),
          offset⟩ =
        (let (later, stop) := membersAfterMember (readMembers fuel) ⟨rest, stop⟩
        (.member spelling pause node after later, stop)) ∧ spelling.Spells lead.key ∧
        node.Spells value := by
  obtain ⟨spelling, close, hkey, hspelling⟩ := Cursor.string_written lead.key
    (encode (gapChars lead.beforeColon) ++ 58 ::
      (encode (gapChars lead.afterColon) ++
        (encode value.chars ++ (encode (gapChars lead.after) ++ rest))))
    offset
  let colon := close + lead.beforeColon.length
  let begins := colon + 1 + lead.afterColon.length
  obtain ⟨node, stop, hread, hnode⟩ :=
    hvalue fuel _ begins hfuel (hrest.endsNumeral.gap lead.after)
  have hcolon (text : List UInt8) :
      Cursor.skipBlanks ⟨encode (gapChars lead.beforeColon) ++ 58 :: text, close⟩ =
        ⟨58 :: text, colon⟩ :=
    (skipBlanks_gap lead.beforeColon _ close).trans (skipBlanks_of_ne (by decide) _ _)
  have hbegins (text : List UInt8) : Cursor.skipBlanks (Cursor.next
      ⟨58 :: (encode (gapChars lead.afterColon) ++ (encode value.chars ++ text)), colon⟩) =
        ⟨encode value.chars ++ text, begins⟩ :=
    (skipBlanks_gap lead.afterColon _ (colon + 1)).trans
      ((value.begins.append text).skipBlanks _)
  have hafter : Cursor.skipBlanks ⟨encode (gapChars lead.after) ++ rest, stop⟩ =
      ⟨rest, stop + lead.after.length⟩ :=
      (skipBlanks_gap lead.after rest stop).trans (hrest.skipBlanks _)
  refine ⟨spelling, colon, node, stop + lead.after.length, stop + lead.after.length, ?_,
    hspelling, hnode⟩
  rw [encode_stringChars] at hkey ⊢
  simp only [List.cons_append] at hkey ⊢
  simp only [readMembers, hkey, hcolon, hbegins, hread, hafter]
  rfl

/-- Members are read as they are written if each of their values is. -/
theorem readMembers_written {lead : Lead} {value : Written} {members : List (Lead × Written)}
    (h : ∀ m ∈ (lead, value) :: members, m.2.IsRead) {fuel : Nat}
    (hfuel : 2 * (memberBytes lead value members).length ≤ fuel) (rest : List UInt8)
    (offset : Nat) :
    ∃ read stop, readMembers fuel ⟨memberBytes lead value members ++ rest, offset⟩ =
      (read, some ⟨rest, stop⟩) ∧ read.Match Node.Spells ((lead, value) :: members) := by
  have hassoc (lead : Lead) (value : Written) (members : List (Lead × Written)) :
      memberBytes lead value members ++ rest =
        encode (stringChars lead.key) ++ (encode (gapChars lead.beforeColon) ++ 58 ::
          (encode (gapChars lead.afterColon) ++
            (encode value.chars ++ (encode (gapChars lead.after) ++
            (encode (writtenMembers [','] members) ++ rest))))) := by
    simp only [memberBytes, List.append_assoc, List.cons_append]
  have hlength (lead : Lead) (value : Written) (members : List (Lead × Written)) :
      (encode value.chars).length + (encode (writtenMembers [','] members)).length <
        (memberBytes lead value members).length := by
    simp only [memberBytes, List.length_append, List.length_cons]
    omega
  induction members generalizing lead value fuel offset with
  | nil =>
    have hvalue : value.IsRead := h _ List.mem_cons_self
    have hlt := hlength lead value []
    obtain ⟨fuel, rfl⟩ : ∃ k, fuel = k + 1 := ⟨fuel - 1, by omega⟩
    obtain ⟨spelling, pause, node, after, stop, hread, hspelling, hnode⟩ :=
      readMembers_member lead hvalue
      (show _ ≤ fuel by omega) (isBreak_writtenMembers [] rest) offset
    rw [hassoc, hread]
    exact ⟨_, _, rfl, .member hspelling hnode .close⟩
  | cons next members ih =>
    obtain ⟨next_lead, next⟩ := next
    obtain ⟨hvalue : value.IsRead, hvalues⟩ := List.forall_mem_cons.mp h
    have hlt := hlength lead value ((next_lead, next) :: members)
    rw [encode_writtenMembers, List.length_append, List.length_append] at hlt
    have hcomma : (encode [',']).length = 1 := rfl
    obtain ⟨fuel, rfl⟩ : ∃ k, fuel = k + 1 := ⟨fuel - 1, by omega⟩
    obtain ⟨spelling, pause, node, after, stop, hread, hspelling, hnode⟩ :=
      readMembers_member lead hvalue (show _ ≤ fuel by omega)
        (isBreak_writtenMembers ((next_lead, next) :: members) rest) offset
    obtain ⟨later, stop', hlater, hmatch⟩ := ih hvalues (show _ ≤ fuel by omega)
      (stop + 1 + next_lead.before.length)
    have hbegins : Begins (memberBytes next_lead next members ++ rest) := by
      rw [hassoc]
      exact (begins_stringChars next_lead.key).append _
    have hnext : membersAfterMember (readMembers fuel)
        ⟨encode (writtenMembers [','] ((next_lead, next) :: members)) ++ rest, stop⟩ =
          (later, some ⟨rest, stop'⟩) := by
      rw [encode_writtenMembers, List.append_assoc, List.append_assoc, ← hlater]
      exact hbegins.membersAfterComma (readMembers fuel) next_lead.before stop
    rw [hassoc, hread, hnext]
    exact ⟨_, _, rfl, .member hspelling hnode hmatch⟩

/-! ### All values -/

/-- A word is read back. -/
theorem wordNode_append (first : UInt8) (letters : List UInt8) (node : Nat → Node)
    (rest : List UInt8) (offset : Nat) :
    ∃ stop, wordNode letters node ⟨first :: (letters ++ rest), offset⟩ =
      (node offset, some ⟨rest, stop⟩) := by
  have hword (letters : List UInt8) (offset : Nat) :
      ∃ stop, Cursor.word letters ⟨letters ++ rest, offset⟩ = .ok ⟨rest, stop⟩ := by
    induction letters generalizing offset with
    | nil => exact ⟨offset, rfl⟩
    | cons letter letters ih =>
      obtain ⟨stop, hstop⟩ := ih (offset + 1)
      exact ⟨stop, by simp [Cursor.word, Cursor.next, hstop]⟩
  obtain ⟨stop, hstop⟩ := hword letters (offset + 1)
  exact ⟨stop, by simp [wordNode, Cursor.next, hstop]⟩

/-- A numeral is read where a minus sign or a digit stands. -/
theorem readValue_numeral {b : UInt8} (h : b = 45 ∨ isDigit b) (fuel : Nat) (bs : List UInt8)
    (offset : Nat) :
    readValue (fuel + 1) ⟨b :: bs, offset⟩ = numberNode ⟨b :: bs, offset⟩ := by
  have hne {d : UInt8} (hd : (d == 45 || isDigit d) = false) : b ≠ d := ne_of_numeral h hd
  simp [readValue, hne (d := 110) rfl, hne (d := 116) rfl, hne (d := 102) rfl,
    hne (d := 34) rfl, hne (d := 91) rfl, hne (d := 123) rfl, h]

/-- A value is read as a tree of its form if its first byte says which reader is for it, and
that one does. -/
theorem Written.isRead_of_reader {w : Written} {first : UInt8} {bs : List UInt8}
    (read : Cursor → Node × Option Cursor) (hchars : encode w.chars = first :: bs)
    (hread : ∀ fuel rest offset, readValue (fuel + 1) ⟨first :: rest, offset⟩ =
      read ⟨first :: rest, offset⟩)
    (hspells : ∀ rest offset, EndsNumeral rest → ∃ node stop,
      read ⟨encode w.chars ++ rest, offset⟩ = (node, some ⟨rest, stop⟩) ∧ node.Spells w) :
    w.IsRead := by
  intro fuel rest offset hfuel hrest
  obtain ⟨node, stop, hnode, hform⟩ := hspells rest offset hrest
  rw [hchars] at hfuel hnode ⊢
  rw [List.length_cons] at hfuel
  obtain ⟨fuel, rfl⟩ : ∃ k, fuel = k + 1 := ⟨fuel - 1, by omega⟩
  exact ⟨node, stop, (hread fuel (bs ++ rest) offset).trans hnode, hform⟩

theorem Written.isRead_word {w : Written} {first : UInt8} {letters : List UInt8}
    (node : Nat → Node) (hchars : encode w.chars = first :: letters)
    (hspells : ∀ start, (node start).Spells w)
    (hread : ∀ fuel rest offset, readValue (fuel + 1) ⟨first :: rest, offset⟩ =
      wordNode letters node ⟨first :: rest, offset⟩) : w.IsRead := by
  refine Written.isRead_of_reader _ hchars hread fun rest offset _ => ?_
  obtain ⟨stop, hword⟩ := wordNode_append first letters node rest offset
  rw [hchars]
  exact ⟨node offset, stop, hword, hspells offset⟩

theorem Written.isRead_number (l : WrittenNumeral) : (number l).IsRead := by
  obtain ⟨b, bs, hbs, hb⟩ := l.exists_encode_chars
  refine Written.isRead_of_reader _ hbs (readValue_numeral hb) fun rest offset hrest => ?_
  obtain ⟨start, value, stop, hread, hvalue⟩ := numberNode_written l hrest offset
  exact ⟨_, stop, hread, .number hvalue⟩

theorem Written.isRead_text (pieces : List Piece) : (text pieces).IsRead := by
  refine Written.isRead_of_reader textNode (encode_stringChars pieces) (fun _ _ _ => rfl)
    fun rest offset _ => ?_
  obtain ⟨spelling, stop, hread, hspelling⟩ := Cursor.string_written pieces rest offset
  rw [textNode]
  exact ⟨.text spelling, stop, by simp only [Written.chars, hread], .text hspelling⟩

theorem Written.isRead_array (gap : List Blank) {items : List (Margins × Written)}
    (h : ∀ item ∈ items, item.2.IsRead) : (array gap items).IsRead := by
  intro fuel rest offset hfuel _
  rw [encode_array, List.length_cons, List.length_append] at hfuel
  obtain ⟨fuel, rfl⟩ : ∃ k, fuel = k + 1 := ⟨fuel - 1, by omega⟩
  have hskip (text : List UInt8) : Cursor.skipBlanks (Cursor.next
      ⟨91 :: (encode (gapChars gap) ++ text), offset⟩) = skipBlanks text (offset + 1 +
      gap.length) :=
    skipBlanks_gap gap text (offset + 1)
  rw [encode_array, List.cons_append, List.append_assoc, readValue]
  simp only [hskip]
  cases items with
  | nil => exact ⟨_, _, rfl, .array rfl .nil⟩
  | cons item items =>
    obtain ⟨margins, item⟩ := item
    rw [encode_writtenItems, encode_nil, List.nil_append, List.length_append] at hfuel
    have hbegins : Begins (itemBytes margins item items ++ rest) := by
      rw [itemBytes, List.append_assoc]
      exact item.begins.append _
    obtain ⟨read, stop, nodes, hread, hnodes, hall⟩ :=
      readItems_written h (show _ ≤ fuel by omega) rest
      (offset + 1 + gap.length + margins.before.length)
    rw [encode_writtenItems, encode_nil, List.nil_append, List.append_assoc, skipBlanks_gap,
      hbegins.skipBlanks, hbegins.itemsAfterBracket, hread]
    exact ⟨_, _, rfl, .array hnodes hall⟩

theorem Written.isRead_object (gap : List Blank) {members : List (Lead × Written)}
    (h : ∀ member ∈ members, member.2.IsRead) : (object gap members).IsRead := by
  intro fuel rest offset hfuel _
  rw [encode_object, List.length_cons, List.length_append] at hfuel
  obtain ⟨fuel, rfl⟩ : ∃ k, fuel = k + 1 := ⟨fuel - 1, by omega⟩
  have hskip (text : List UInt8) : Cursor.skipBlanks (Cursor.next
      ⟨123 :: (encode (gapChars gap) ++ text), offset⟩) = skipBlanks text (offset + 1 +
      gap.length) :=
    skipBlanks_gap gap text (offset + 1)
  rw [encode_object, List.cons_append, List.append_assoc, readValue]
  simp only [hskip]
  cases members with
  | nil => exact ⟨_, _, rfl, .object .close⟩
  | cons member members =>
    obtain ⟨lead, value⟩ := member
    rw [encode_writtenMembers, encode_nil, List.nil_append, List.length_append] at hfuel
    have hbegins : Begins (memberBytes lead value members ++ rest) := by
      rw [memberBytes, List.append_assoc]
      exact (begins_stringChars lead.key).append _
    obtain ⟨read, stop, hread, hmatch⟩ := readMembers_written h (show _ ≤ fuel by omega) rest
      (offset + 1 + gap.length + lead.before.length)
    rw [encode_writtenMembers, encode_nil, List.nil_append, List.append_assoc, skipBlanks_gap,
      hbegins.skipBlanks, hbegins.membersAfterBrace, hread]
    exact ⟨_, _, rfl, .object hmatch⟩

/-- **Values.** A written value is read as a tree of its form, whatever follows it, so long
as no numeral goes on there. -/
theorem Written.isRead (w : Written) : w.IsRead := by
  induction w using Written.rec_parts with
  | null => exact Written.isRead_word .null rfl (fun _ => .null) fun _ _ _ => rfl
  | bool b =>
    cases b with
    | true => exact Written.isRead_word (.bool true) rfl (fun _ => .bool) fun _ _ _ => rfl
    | false => exact Written.isRead_word (.bool false) rfl (fun _ => .bool) fun _ _ _ => rfl
  | number l => exact Written.isRead_number l
  | text pieces => exact Written.isRead_text pieces
  | array gap items ih => exact Written.isRead_array gap ih
  | object gap members ih => exact Written.isRead_object gap ih

/-- **Documents.** The document of a text is a tree of the form of the value in it, and
nothing follows it. -/
theorem Page.document (p : Page) :
    (Document.ofBytes p.bytes).root.Spells p.value ∧
      (Document.ofBytes p.bytes).surplus = none := by
  have hbytes : p.bytes =
      encode (gapChars p.before) ++ (encode p.value.chars ++ encode (gapChars p.after)) := by
    rw [Page.bytes, encode_append, encode_append, List.append_assoc]
  have hrest : EndsNumeral (encode (gapChars p.after)) := by
    simpa using endsNumeral_nil.gap p.after
  obtain ⟨node, stop, hread, hspells⟩ := p.value.isRead (2 * p.bytes.length + 2)
    (encode (gapChars p.after)) (0 + p.before.length)
      (by simp only [hbytes, List.length_append]; omega) hrest
  have hstart : skipBlanks p.bytes 0 =
      ⟨encode p.value.chars ++ encode (gapChars p.after), 0 + p.before.length⟩ := by
    rw [hbytes, skipBlanks_gap, (p.value.begins.append _).skipBlanks]
  have hend :
      Cursor.skipBlanks ⟨encode (gapChars p.after), stop⟩ = ⟨[], stop + p.after.length⟩ := by
    simpa [Cursor.skipBlanks, skipBlanks] using skipBlanks_gap p.after [] stop
  rw [Document.ofBytes, hstart, hread]
  refine ⟨hspells, ?_⟩
  simp [hend]

end ApiSurface.Json
