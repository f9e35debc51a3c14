import ApiSurface.Proofs.Json.Written

/-!
# Strings as written

A string is read piece by piece, and gives the text that its units of UTF-16 stand for. Only
an escaped half of a surrogate pair needs what follows it, which then has to be the code of
the other half: no character that stands for itself begins with a second half. Passing over
a string never looks at the units, so it succeeds also where they stand for no text.

## Main results

* `decodeUnits_charUnits`: the units of a character stand for it.
* `keepString_pieces`: the text of a written string.
* `Cursor.string_written`: reading a written string gives its text, and goes on after
  its closing quote.
* `exists_pieces`: a rendered string is written in pieces that spell it.
-/

namespace ApiSurface.Json

open Text

/-! ### Units -/

/-- No character is a half of a surrogate pair. -/
theorem halves_of_char (c : Char) :
    isFirstHalf c.toNat = false ∧ isSecondHalf c.toNat = false := by
  have hvalid : c.toNat < 0xD800 ∨ 0xDFFF < c.toNat ∧ c.toNat < 0x110000 := c.valid
  simp only [isFirstHalf, isSecondHalf, Bool.and_eq_false_iff, decide_eq_false_iff_not]
  omega

/-- A unit that is no half of a surrogate pair stands for a character. -/
theorem decodeUnits_whole {unit : Nat} (hfirst : isFirstHalf unit = false)
    (hsecond : isSecondHalf unit = false) (rest : List Nat) :
    decodeUnits (unit :: rest) = (decodeUnits rest).map (Char.ofNat unit :: ·) := by
  rw [decodeUnits.eq_def]
  simp [hfirst, hsecond]

/-- A second half that no first half comes before stands for nothing. -/
theorem decodeUnits_second {unit : Nat} (h : isSecondHalf unit = true) (rest : List Nat) :
    decodeUnits (unit :: rest) = none := by
  rw [decodeUnits.eq_def]
  simp [h]

/-- A first half is not a second half. -/
theorem not_second_of_first {unit : Nat} (h : isFirstHalf unit = true) :
    isSecondHalf unit = false := by
  simp only [isFirstHalf, Bool.and_eq_true, decide_eq_true_eq] at h
  simp only [isSecondHalf, Bool.and_eq_false_iff, decide_eq_false_iff_not]
  omega

/-- A first half stands for a character if a second half follows it. -/
theorem decodeUnits_first {unit : Nat} (h : isFirstHalf unit = true) (second : Nat)
    (rest : List Nat) :
    decodeUnits (unit :: second :: rest) =
      if isSecondHalf second
      then (decodeUnits rest).map (Char.ofNat (pairedCode unit second) :: ·) else none := by
  rw [decodeUnits.eq_def]
  simp [h, not_second_of_first h]

/-- A first half at the end stands for nothing. -/
theorem decodeUnits_half {unit : Nat} (h : isFirstHalf unit = true) :
    decodeUnits [unit] = none := by
  rw [decodeUnits.eq_def]
  simp [h]

/-- The units of a character begin with no second half. -/
theorem exists_charUnits (c : Char) :
    ∃ unit units, charUnits c = unit :: units ∧ isSecondHalf unit = false := by
  rw [charUnits]
  split
  case isTrue hsingle => exact ⟨_, _, rfl, (halves_of_char c).2⟩
  case isFalse hpair =>
    have hvalid : c.toNat < 0xD800 ∨ 0xDFFF < c.toNat ∧ c.toNat < 0x110000 := c.valid
    refine ⟨_, _, rfl, ?_⟩
    simp only [isSecondHalf, Bool.and_eq_false_iff, decide_eq_false_iff_not]
    omega

/-- The units of a character stand for it, whatever follows them. -/
theorem decodeUnits_charUnits (c : Char) (units : List Nat) :
    decodeUnits (charUnits c ++ units) = (decodeUnits units).map (c :: ·) := by
  rw [charUnits]
  split
  case isTrue hsingle =>
    obtain ⟨hfirst, hsecond⟩ := halves_of_char c
    rw [List.singleton_append, decodeUnits_whole hfirst hsecond, Char.ofNat_toNat]
  case isFalse hpair =>
    have hvalid : c.toNat < 0xD800 ∨ 0xDFFF < c.toNat ∧ c.toNat < 0x110000 := c.valid
    have hfirst : isFirstHalf (0xD800 + (c.toNat - 0x10000) / 1024) = true := by
      simp only [isFirstHalf, Bool.and_eq_true, decide_eq_true_eq]
      omega
    have hsecond : isSecondHalf (0xDC00 + (c.toNat - 0x10000) % 1024) = true := by
      simp only [isSecondHalf, Bool.and_eq_true, decide_eq_true_eq]
      omega
    have hcode : pairedCode (0xD800 + (c.toNat - 0x10000) / 1024)
        (0xDC00 + (c.toNat - 0x10000) % 1024) = c.toNat := by
      rw [pairedCode]
      omega
    rw [List.cons_append, List.singleton_append, decodeUnits_first hfirst, if_pos hsecond,
      hcode, Char.ofNat_toNat]

/-! ### The bytes of a piece -/

/-- The character that a piece stands for, if it is not a code. -/
def Piece.character? : Piece → Option Char
  | .plain c _ => some c
  | .letter l => some l.escaped
  | .code _ _ _ _ => none

/-- A piece that is not a code is one of the ways to write its character. -/
theorem Piece.writes {p : Piece} {c : Char} (h : p.character? = some c) :
    Writes c (encode p.chars) ∧ p.units = charUnits c := by
  cases p with
  | plain d allowed =>
    cases h
    refine ⟨?_, rfl⟩
    rw [chars, encode_cons, encode_nil, List.append_nil]
    exact .plain (isPlainByte_of_mem_utf8EncodeChar allowed.1 allowed.2.1 allowed.2.2)
  | letter l =>
    cases h
    refine ⟨?_, rfl⟩
    cases l <;> exact .letter (by decide) rfl rfl
  | code => cases h

/-- The byte of a digit in base sixteen. -/
def HexDigit.byte (d : HexDigit) : UInt8 := d.char.toUInt8

theorem hexDigit_byte : ∀ (value : Fin 16) (capital : Bool),
    String.utf8EncodeChar (HexDigit.mk value capital).char =
    [(HexDigit.mk value capital).byte] ∧
      hexValue (HexDigit.mk value capital).byte = some value.val := by
  decide

/-- The bytes of a code. -/
theorem Piece.encode_code (a b c d : HexDigit) :
    encode (Piece.code a b c d).chars = [92, 117, a.byte, b.byte, c.byte, d.byte] := by
  have hbyte (d : HexDigit) : String.utf8EncodeChar d.char = [d.byte] :=
    (hexDigit_byte d.value d.capital).1
  simp only [chars, encode_cons, encode_nil, hbyte]
  rfl

/-- The digits of a code denote its unit. -/
theorem hexQuad_byte (a b c d : HexDigit) :
    hexQuad a.byte b.byte c.byte d.byte = some (codeUnit a b c d) := by
  have hvalue (d : HexDigit) : hexValue d.byte = some d.value.val :=
    (hexDigit_byte d.value d.capital).2
  simp only [hexQuad, hvalue, codeUnit]
  rfl

/-! ### Passing over a string -/

/-- A piece is passed over, whatever follows it. -/
theorem Piece.passString (p : Piece) (rest : List UInt8) (offset : Nat) :
    passString (encode p.chars ++ rest) offset =
      passString rest (offset + (encode p.chars).length) := by
  cases p with
  | plain c allowed =>
    exact (Piece.writes (p := .plain c allowed) rfl).1.passString rest offset
  | letter l => exact (Piece.writes (p := .letter l) rfl).1.passString rest offset
  | code a b c d =>
    rw [Piece.encode_code]
    simp [Json.passString, hexQuad_byte]

/-- A string is passed over up to its closing quote. -/
theorem passString_pieces (pieces : List Piece) (rest : List UInt8) (offset : Nat) :
    passString (encode (pieces.flatMap Piece.chars) ++ 34 :: rest) offset =
      .ok ⟨rest, offset + (encode (pieces.flatMap Piece.chars)).length + 1⟩ := by
  induction pieces generalizing offset with
  | nil => rfl
  | cons p pieces ih =>
    rw [List.flatMap_cons, encode_append, List.append_assoc, p.passString, ih,
      List.length_append, Nat.add_assoc offset]

/-! ### Keeping a string -/

section Code

variable {a b c d : UInt8} {unit : Nat} (h : hexQuad a b c d = some unit)
  (read rest : List UInt8) (offset : Nat)
include h

/-- The code of a whole character is read as the bytes of the character. -/
theorem keepString_whole (hfirst : isFirstHalf unit = false)
    (hsecond : isSecondHalf unit = false) :
    keepString read (92 :: 117 :: a :: b :: c :: d :: rest) offset =
      keepString ((codeBytes unit).reverse ++ read) rest (offset + 6) := by
  simp [keepString, h, hfirst, hsecond]

/-- The code of a second half that no first half comes before is not read. -/
theorem keepString_second (hsecond : isSecondHalf unit = true) :
    (keepString read (92 :: 117 :: a :: b :: c :: d :: rest) offset).toOption = none := by
  simp [keepString, h, hsecond, Except.toOption]

/-- The code of a first half is read together with the code after it. -/
theorem keepString_first (hfirst : isFirstHalf unit = true) {e f g i : UInt8} {second : Nat}
    (h' : hexQuad e f g i = some second) :
    (keepString read (92 :: 117 :: a :: b :: c :: d :: 92 :: 117 :: e :: f :: g :: i :: rest)
        offset).toOption =
      if isSecondHalf second then
        (keepString ((codeBytes (pairedCode unit second)).reverse ++ read) rest
          (offset + 12)).toOption
      else none := by
  cases hsecond : isSecondHalf second <;>
    simp [keepString, h, h', hfirst, not_second_of_first hfirst, hsecond, Except.toOption]

/-- The code of a first half is not read if what follows is no code. -/
theorem keepString_halved (hfirst : isFirstHalf unit = true) {next : UInt8}
    {later : List UInt8} (hnext : next = 92 → ∃ b more, later = b :: more ∧ b ≠ 117) :
    (keepString read (92 :: 117 :: a :: b :: c :: d :: next :: later) offset).toOption =
      none := by
  by_cases hslash : next = 92
  · obtain ⟨b, more, rfl, hb⟩ := hnext hslash
    simp [keepString, h, hfirst, not_second_of_first hfirst, hslash, hb, Except.toOption]
  · simp [keepString, h, hfirst, not_second_of_first hfirst, hslash, Except.toOption]

end Code

/-- A piece that is not a code begins with no code. -/
theorem Piece.begins_of_character {p : Piece} {c : Char} (h : p.character? = some c) :
    ∃ next later, encode p.chars = next :: later ∧
      (next = 92 → ∃ b more, later = b :: more ∧ b ≠ 117) := by
  cases p with
  | plain c allowed =>
    obtain ⟨b, bs, hbs⟩ := List.exists_cons_of_ne_nil (String.utf8EncodeChar_ne_nil (c := c))
    have hb :=
      isPlainByte_of_mem_utf8EncodeChar allowed.1 allowed.2.1 allowed.2.2 b (by simp [hbs])
    refine ⟨b, bs, by rw [chars, encode_cons, encode_nil, List.append_nil, hbs],
      fun hslash => ?_⟩
    exact absurd hslash hb.2.2
  | letter l => cases l <;> exact ⟨_, _, rfl, fun _ => ⟨_, _, rfl, by decide⟩⟩
  | code => cases h

/-- Reading a character first, or putting it before what is read. -/
theorem map_encode_cons (c : Char) (read : List UInt8) (cs? : Option (List Char)) :
    (cs?.map fun cs => ((String.utf8EncodeChar c).reverse ++ read).reverse ++ encode cs) =
      (cs?.map (c :: ·)).map fun cs => read.reverse ++ encode cs := by
  rw [Option.map_map]
  refine congrArg (Option.map · cs?) (funext fun cs => ?_)
  rw [Function.comp_apply, encode_cons, List.reverse_append, List.reverse_reverse,
    List.append_assoc]

/-- A piece stands for a character by itself, or it is a code. -/
theorem Piece.character_or_code (p : Piece) :
    (∃ c, p.character? = some c) ∨ ∃ a b c d, p = .code a b c d := by
  cases p with
  | plain c _ => exact .inl ⟨c, rfl⟩
  | letter l => exact .inl ⟨l.escaped, rfl⟩
  | code a b c d => exact .inr ⟨a, b, c, d, rfl⟩

/-- Whether a string, from some piece on, is read as the bytes of the characters that its
units stand for, if they stand for any. -/
def AreKept (pieces : List Piece) : Prop := ∀ read rest offset,
  (keepString read (encode (pieces.flatMap Piece.chars) ++ 34 :: rest)
      offset).toOption.map Prod.fst =
    (decodeUnits (stringUnits pieces)).map fun cs => read.reverse ++ encode cs

/-- The same for the pieces after the code of a first half. -/
def AreKeptAfterHalf (pieces : List Piece) : Prop := ∀ {a b c d : UInt8} {unit : Nat},
  hexQuad a b c d = some unit → isFirstHalf unit = true → ∀ read rest offset,
    (keepString read (92 :: 117 :: a :: b :: c :: d ::
      (encode (pieces.flatMap Piece.chars) ++ 34 :: rest)) offset).toOption.map Prod.fst =
        (decodeUnits (unit :: stringUnits pieces)).map fun cs => read.reverse ++ encode cs

section Pieces

variable {p : Piece} {pieces : List Piece} {ch : Char}

theorem encode_pieces_cons (p : Piece) (pieces : List Piece) (rest : List UInt8) :
    encode ((p :: pieces).flatMap Piece.chars) ++ rest =
      encode p.chars ++ (encode (pieces.flatMap Piece.chars) ++ rest) := by
  rw [List.flatMap_cons, encode_append, List.append_assoc]

theorem stringUnits_cons (p : Piece) (pieces : List Piece) :
    stringUnits (p :: pieces) = p.units ++ stringUnits pieces := List.flatMap_cons

theorem areKept_nil : AreKept [] := by
  intro read rest offset
  show (some (read.reverse, offset + 1)).map Prod.fst = some (read.reverse ++ [])
  rw [List.append_nil]
  rfl

theorem AreKept.character (h : AreKept pieces) (hp : p.character? = some ch) :
    AreKept (p :: pieces) := by
  intro read rest offset
  obtain ⟨hwrites, hunits⟩ := p.writes hp
  rw [encode_pieces_cons, hwrites.keepString, h, stringUnits_cons, hunits,
    decodeUnits_charUnits, map_encode_cons]

theorem AreKept.code (h : AreKept pieces) (half : AreKeptAfterHalf pieces)
    (a b c d : HexDigit) : AreKept (.code a b c d :: pieces) := by
  intro read rest offset
  have hquad := hexQuad_byte a b c d
  rw [encode_pieces_cons, Piece.encode_code, stringUnits_cons, Piece.units]
  simp only [List.cons_append, List.nil_append]
  generalize codeUnit a b c d = unit at hquad
  cases hfirst : isFirstHalf unit with
  | true => exact half hquad hfirst read rest offset
  | false =>
    cases hsecond : isSecondHalf unit with
    | true =>
      rw [keepString_second hquad _ _ _ hsecond, decodeUnits_second hsecond]
      rfl
    | false =>
      rw [keepString_whole hquad _ _ _ hfirst hsecond, h, decodeUnits_whole hfirst hsecond,
        ← map_encode_cons]
      rfl

theorem areKeptAfterHalf_nil : AreKeptAfterHalf [] := by
  intro a b c d unit hquad hfirst read rest offset
  rw [show decodeUnits (unit :: stringUnits []) = none from decodeUnits_half hfirst]
  exact congrArg (Option.map Prod.fst)
    (keepString_halved hquad read offset hfirst fun hslash => absurd hslash (by decide))

/-- A character is no second half. -/
theorem areKeptAfterHalf_character (hp : p.character? = some ch) (pieces : List Piece) :
    AreKeptAfterHalf (p :: pieces) := by
  intro a b c d unit hquad hfirst read rest offset
  obtain ⟨next, later, hchars, hnext⟩ := p.begins_of_character hp
  obtain ⟨second, more, hunits, hsecond⟩ := exists_charUnits ch
  rw [encode_pieces_cons, hchars, List.cons_append, stringUnits_cons, (p.writes hp).2, hunits,
    List.cons_append, decodeUnits_first hfirst, if_neg (by simp [hsecond])]
  refine congrArg (Option.map Prod.fst) (keepString_halved hquad read offset hfirst
    fun hslash => ?_)
  obtain ⟨b, bs, rfl, hb⟩ := hnext hslash
  exact ⟨b, _, rfl, hb⟩

theorem AreKept.secondCode (h : AreKept pieces) (a b c d : HexDigit) :
    AreKeptAfterHalf (.code a b c d :: pieces) := by
  intro _ _ _ _ unit hquad hfirst read rest offset
  have hquad' := hexQuad_byte a b c d
  rw [encode_pieces_cons, Piece.encode_code, stringUnits_cons, Piece.units]
  simp only [List.cons_append, List.nil_append]
  generalize codeUnit a b c d = second at hquad'
  rw [keepString_first hquad _ _ _ hfirst hquad', decodeUnits_first hfirst]
  split
  · rw [h, ← map_encode_cons]
    rfl
  · rfl

end Pieces

/-- A string is read as the bytes of the characters that its units stand for, also after
a first half. -/
theorem keepString_pieces (pieces : List Piece) :
    AreKept pieces ∧ AreKeptAfterHalf pieces := by
  induction pieces with
  | nil => exact ⟨areKept_nil, areKeptAfterHalf_nil⟩
  | cons p pieces ih =>
    obtain ⟨hkept, hhalf⟩ := ih
    obtain ⟨ch, hp⟩ | ⟨a, b, c, d, rfl⟩ := p.character_or_code
    · exact ⟨hkept.character hp, areKeptAfterHalf_character hp pieces⟩
    · exact ⟨hkept.code hhalf a b c d, hkept.secondCode a b c d⟩

/-! ### Strings -/

/-- All bytes of some characters belong to characters. -/
theorem flaw?_encode (cs : List Char) : flaw? (encode cs) = none := by
  rw [flaw?, ← bytes_ofList, ofBytes?_bytes]
  rfl

/-- Whether a string has been read as it is written: with its text, if it has one, and with
all its bytes belonging to characters. -/
def Spelling.Spells (spelling : Spelling) (pieces : List Piece) : Prop :=
  spelling.text.toOption = spelled? pieces ∧ spelling.flaw = none

/-- A string has a text exactly if its units stand for it. -/
theorem Spelling.Spells.text_iff {spelling : Spelling} {pieces : List Piece}
    (h : spelling.Spells pieces) {s : String} :
    spelling.text = .ok s ↔ spelled? pieces = some s := by
  rw [← h.1]
  cases spelling.text <;> simp [Except.toOption]

/-- The text of a string is that of the characters of its units. -/
theorem Cursor.keepString_pieces (pieces : List Piece) (rest : List UInt8) (offset : Nat) :
    (Cursor.keepString ⟨encode (pieces.flatMap Piece.chars) ++ 34 :: rest, offset⟩).toOption =
      spelled? pieces := by
  have hkept := (Json.keepString_pieces pieces).1 [] rest offset
  rw [spelled?, Cursor.keepString]
  cases hcs : decodeUnits (stringUnits pieces) with
  | none =>
    cases hread : Json.keepString [] (encode (pieces.flatMap Piece.chars) ++ 34 :: rest)
        offset with
    | error fault => rfl
    | ok result => simp [hcs, hread, Except.toOption] at hkept
  | some cs =>
    cases hread : Json.keepString [] (encode (pieces.flatMap Piece.chars) ++ 34 :: rest)
        offset with
    | error fault => simp [hcs, hread, Except.toOption] at hkept
    | ok result =>
      obtain ⟨bytes, stop⟩ := result
      have hbytes : bytes = Text.bytes (String.ofList cs) := by
        simpa [hcs, hread, Except.toOption, bytes_ofList] using hkept
      simp only [Except.ok_bind, hbytes, ofBytes?_bytes]
      rfl

theorem encode_stringChars (pieces : List Piece) :
    encode (stringChars pieces) = 34 :: encode (pieces.flatMap Piece.chars) ++ [34] := by
  rw [stringChars, encode_append, encode_cons]
  rfl

/-- **Strings.** A written string is read as it is written, and reading goes on after its
closing quote. -/
theorem Cursor.string_written (pieces : List Piece) (rest : List UInt8) (offset : Nat) :
    ∃ spelling stop,
      Cursor.string (Cursor.next ⟨encode (stringChars pieces) ++ rest, offset⟩) =
      .ok (spelling, ⟨rest, stop⟩) ∧ spelling.Spells pieces := by
  have hnext : Cursor.next ⟨encode (stringChars pieces) ++ rest, offset⟩ =
      ⟨encode (pieces.flatMap Piece.chars) ++ 34 :: rest, offset + 1⟩ := by
    rw [encode_stringChars, List.append_assoc]
    rfl
  rw [hnext, Cursor.string, passString_pieces]
  refine ⟨_, _, rfl, Cursor.keepString_pieces pieces rest (offset + 1), ?_⟩
  generalize pieces.flatMap Piece.chars = cs
  have hlength :
      offset + 1 + (encode cs).length + 1 - (offset + 1) - 1 = (encode cs).length := by omega
  simp only [hlength, List.take_left, flaw?_encode]
  rfl

/-! ### Strings as they are rendered -/

/-- The digit with a value below sixteen, as a capital letter or not. -/
def HexDigit.ofNat (value : Nat) (capital : Bool) : HexDigit := ⟨Fin.ofNat 16 value, capital⟩

/-- The code of a control character. -/
def controlPiece (n : Fin 32) : Piece :=
  .code ⟨0, false⟩ ⟨0, false⟩ ⟨⟨n / 16, by omega⟩, false⟩ ⟨⟨n % 16, by omega⟩, false⟩

theorem controlPiece_spec : ∀ n : Fin 32, (controlPiece n).chars = codeEscape (Char.ofNat n) ∧
    (controlPiece n).units = charUnits (Char.ofNat n) := by
  decide

/-- A character is written as a piece that stands for it. -/
theorem exists_piece (c : Char) :
    ∃ p : Piece, p.chars = escapeChar c ∧ p.units = charUnits c := by
  unfold escapeChar
  split
  case h_1 => exact ⟨.letter .quote, rfl, rfl⟩
  case h_2 => exact ⟨.letter .backslash, rfl, rfl⟩
  case h_3 => exact ⟨.letter .backspace, rfl, rfl⟩
  case h_4 => exact ⟨.letter .formFeed, rfl, rfl⟩
  case h_5 => exact ⟨.letter .lineFeed, rfl, rfl⟩
  case h_6 => exact ⟨.letter .carriageReturn, rfl, rfl⟩
  case h_7 => exact ⟨.letter .tab, rfl, rfl⟩
  case h_8 hquote hslash _ _ _ _ _ =>
    split
    case isTrue hcontrol =>
      have hspec := controlPiece_spec ⟨c.toNat, hcontrol⟩
      rw [Char.ofNat_toNat] at hspec
      exact ⟨_, hspec⟩
    case isFalse hcontrol =>
      exact ⟨.plain c ⟨Nat.le_of_not_lt hcontrol, hquote, hslash⟩, rfl, rfl⟩

/-- A string is written in pieces that spell it. -/
theorem exists_pieces (s : String) :
    ∃ pieces, stringChars pieces = renderString s ∧ spelled? pieces = some s := by
  have hchars (cs : List Char) : ∃ pieces : List Piece,
      pieces.flatMap Piece.chars = cs.flatMap escapeChar ∧
      decodeUnits (stringUnits pieces) = some cs := by
    induction cs with
    | nil => exact ⟨[], rfl, rfl⟩
    | cons c cs ih =>
      obtain ⟨p, hp, hunits⟩ := exists_piece c
      obtain ⟨pieces, hpieces, hdecode⟩ := ih
      refine ⟨p :: pieces, by rw [List.flatMap_cons, List.flatMap_cons, hp, hpieces], ?_⟩
      rw [stringUnits_cons, hunits, decodeUnits_charUnits, hdecode, Option.map_some]
  obtain ⟨pieces, hpieces, hdecode⟩ := hchars s.toList
  exact ⟨pieces, by rw [stringChars, renderString, hpieces], by
    rw [spelled?, hdecode, Option.map_some, String.ofList_toList]⟩

end ApiSurface.Json
