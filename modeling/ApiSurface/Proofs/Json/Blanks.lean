import ApiSurface.Proofs.Json.WrittenNumerals

/-!
# Blanks

Blanks between the parts of a text are passed over. What stands after them tells what is
read next: a value begins with a byte that neither is a blank nor closes anything, and after
a value, and the blanks after it, a comma or a closing bracket follows unless the text ends.

## Main definitions

* `Begins`: texts that begin as a value does.
* `IsBreak`: texts that go on as after a value inside an array or object.

## Main results

* `skipBlanks_gap`: blanks are passed over.
* `Begins.itemsAfterComma`, `Begins.membersAfterComma`: what is read after a comma.
-/

namespace ApiSurface.Json

open Text

/-! ### Passing over blanks -/

/-- The byte of a blank. -/
def Blank.byte (b : Blank) : UInt8 := b.char.toUInt8

theorem encode_gap_cons (b : Blank) (gap : List Blank) :
    encode (gapChars (b :: gap)) = b.byte :: encode (gapChars gap) := by
  cases b <;> rfl

theorem isBlankByte_byte (b : Blank) : isBlankByte b.byte = true := by
  cases b <;> rfl

/-- Blanks are passed over. -/
theorem skipBlanks_gap (gap : List Blank) (rest : List UInt8) (offset : Nat) :
    skipBlanks (encode (gapChars gap) ++ rest) offset =
      skipBlanks rest (offset + gap.length) := by
  induction gap generalizing offset with
  | nil => rfl
  | cons b gap ih =>
    rw [encode_gap_cons, List.cons_append, skipBlanks, isBlankByte_byte, if_pos rfl, ih,
      List.length_cons, Nat.add_assoc, Nat.add_comm 1]

/-! ### Where a value begins -/

theorem skipBlanks_of_ne {b : UInt8} (h : isBlankByte b = false) (rest : List UInt8)
    (offset : Nat) : skipBlanks (b :: rest) offset = ⟨b :: rest, offset⟩ := by
  rw [skipBlanks, h]
  rfl

/-- Whether a text begins as a value does. -/
def Begins (text : List UInt8) : Prop :=
  ∃ b rest, text = b :: rest ∧ isBlankByte b = false ∧ b ≠ 93 ∧ b ≠ 125

theorem Begins.append {text : List UInt8} (h : Begins text) (rest : List UInt8) :
    Begins (text ++ rest) := by
  obtain ⟨b, bs, rfl, hb⟩ := h
  exact ⟨b, bs ++ rest, rfl, hb⟩

theorem Begins.skipBlanks {text : List UInt8} (h : Begins text) (offset : Nat) :
    Json.skipBlanks text offset = ⟨text, offset⟩ := by
  obtain ⟨b, rest, rfl, hb, -⟩ := h
  exact skipBlanks_of_ne hb rest offset

theorem Begins.itemsAfterBracket {text : List UInt8} (h : Begins text)
    (more : Cursor → Items × Option Cursor) (offset : Nat) :
    itemsAfterBracket more ⟨text, offset⟩ = more ⟨text, offset⟩ := by
  obtain ⟨b, rest, rfl, -, hb, -⟩ := h
  simp [Json.itemsAfterBracket, hb]

theorem Begins.membersAfterBrace {text : List UInt8} (h : Begins text)
    (more : Cursor → Members × Option Cursor) (offset : Nat) :
    membersAfterBrace more ⟨text, offset⟩ = more ⟨text, offset⟩ := by
  obtain ⟨b, rest, rfl, -, -, hb⟩ := h
  simp [Json.membersAfterBrace, hb]

/-- After a comma and blanks the next item is read. -/
theorem Begins.itemsAfterComma {text : List UInt8} (h : Begins text)
    (more : Cursor → Items × Option Cursor) (gap : List Blank) (offset : Nat) :
    Json.itemsAfterItem more ⟨44 :: (encode (gapChars gap) ++ text), offset⟩ =
      more ⟨text, offset + 1 + gap.length⟩ := by
  have hskip :
      Cursor.skipBlanks (Cursor.next ⟨44 :: (encode (gapChars gap) ++ text), offset⟩) =
      ⟨text, offset + 1 + gap.length⟩ :=
      (skipBlanks_gap gap text (offset + 1)).trans (h.skipBlanks _)
  rw [Json.itemsAfterItem]
  simp only [hskip]
  obtain ⟨b, rest, rfl, -, hb, -⟩ := h
  simp [hb]

/-- After a comma and blanks the next member is read. -/
theorem Begins.membersAfterComma {text : List UInt8} (h : Begins text)
    (more : Cursor → Members × Option Cursor) (gap : List Blank) (offset : Nat) :
    Json.membersAfterMember more ⟨44 :: (encode (gapChars gap) ++ text), offset⟩ =
      more ⟨text, offset + 1 + gap.length⟩ := by
  have hskip :
      Cursor.skipBlanks (Cursor.next ⟨44 :: (encode (gapChars gap) ++ text), offset⟩) =
      ⟨text, offset + 1 + gap.length⟩ :=
      (skipBlanks_gap gap text (offset + 1)).trans (h.skipBlanks _)
  rw [Json.membersAfterMember]
  simp only [hskip]
  obtain ⟨b, rest, rfl, -, -, hb⟩ := h
  simp [hb]

/-- A numeral does not begin with a byte that is neither a minus sign nor a digit. -/
theorem ne_of_numeral {b d : UInt8} (hb : b = 45 ∨ isDigit b)
    (hd : (d == 45 || isDigit d) = false) : b ≠ d := by
  rintro rfl
  obtain rfl | hdigit := hb
  · cases hd
  · rw [hdigit, Bool.or_true] at hd
    cases hd

/-- A minus sign or a digit begins a text as a value does. -/
theorem begins_of_numeral {b : UInt8} (hb : b = 45 ∨ isDigit b) (bs : List UInt8) :
    Begins (b :: bs) := by
  have hne {d : UInt8} (hd : (d == 45 || isDigit d) = false) : b ≠ d := ne_of_numeral hb hd
  refine ⟨b, bs, rfl, ?_, hne rfl, hne rfl⟩
  simp [isBlankByte, hne (d := 32) rfl, hne (d := 10) rfl, hne (d := 9) rfl, hne (d := 13) rfl]

/-! ### Where a value ends -/

/-- Whether a text ends or goes on as it does after a value inside an array or object. -/
def IsBreak (rest : List UInt8) : Prop := ∀ b ∈ rest.head?, b = 44 ∨ b = 93 ∨ b = 125

theorem isBreak_cons {b : UInt8} (h : b = 44 ∨ b = 93 ∨ b = 125) (rest : List UInt8) :
    IsBreak (b :: rest) := by
  intro b' hb'
  cases hb'
  exact h

/-- A numeral ends before blanks that end before what ends it. -/
theorem EndsNumeral.gap {rest : List UInt8} (h : EndsNumeral rest) (gap : List Blank) :
    EndsNumeral (encode (gapChars gap) ++ rest) := by
  cases gap with
  | nil => exact h
  | cons b gap =>
    rw [encode_gap_cons, List.cons_append]
    exact endsNumeral_cons (by cases b <;> decide) _

theorem IsBreak.endsNumeral {rest : List UInt8} (h : IsBreak rest) : EndsNumeral rest := by
  intro b hb
  obtain rfl | rfl | rfl := h b hb <;> decide

theorem IsBreak.skipBlanks {rest : List UInt8} (h : IsBreak rest) (offset : Nat) :
    Json.skipBlanks rest offset = ⟨rest, offset⟩ := by
  cases rest with
  | nil => rfl
  | cons b rest =>
    refine skipBlanks_of_ne ?_ rest offset
    obtain rfl | rfl | rfl := h b rfl <;> rfl

end ApiSurface.Json
