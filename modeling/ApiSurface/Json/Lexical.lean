import ApiSurface.Json.Fault
import ApiSurface.Text.Lossy

/-!
# Blanks, words, numerals and strings of a JSON text

A value can be read in two ways. A value that is kept is read to its meaning; one that is
passed over is only checked for its form. The two ways accept the same extent of text, but
passing over a string checks neither its encoding nor its surrogates, and the two blame some
faults differently. So each scanner here comes with both readings.

## Main definitions

* `Cursor`: what is left of a text, and how much came before.
* `Blame`: the fault of a text in the two ways of reading it.
* `Cursor.word`, `Cursor.numeral`, `Cursor.string`: the scanners.
* `Spelling`: a string as written, with its meaning.
-/

namespace ApiSurface.Json

/-! ### Cursors -/

/-- A place in a text. -/
structure Cursor where
  /-- The bytes from here on. -/
  rest : List UInt8
  /-- The number of bytes before. -/
  offset : Nat

/-- The place just after the byte here, or here if the text ends. Faults of a byte that has
only been looked at are placed there. -/
def Cursor.seen (c : Cursor) : Nat := if c.rest.isEmpty then c.offset else c.offset + 1

/-- A fault of the byte here. -/
def Cursor.blame (c : Cursor) (cause : Cause) : Fault := ⟨cause, c.seen⟩

/-- The place one byte on. -/
def Cursor.next (c : Cursor) : Cursor := ⟨c.rest.drop 1, c.offset + 1⟩

/-- Whether a byte is blank. -/
def isBlankByte (b : UInt8) : Bool := b = 32 || b = 10 || b = 9 || b = 13

/-- The place of the first byte that is not blank. -/
def skipBlanks : List UInt8 → Nat → Cursor
  | [], offset => ⟨[], offset⟩
  | b :: rest, offset =>
    if isBlankByte b then skipBlanks rest (offset + 1) else ⟨b :: rest, offset⟩

/-- The place of the first byte from here on that is not blank. -/
def Cursor.skipBlanks (c : Cursor) : Cursor := Json.skipBlanks c.rest c.offset

/-- The fault of a text that cannot be read on: when it is kept, and when it is passed over. -/
structure Blame where
  /-- The fault of a value that is kept. -/
  kept : Fault
  /-- The fault of a value that is passed over. -/
  skipped : Fault

/-- One fault for both ways of reading. -/
def Blame.both (fault : Fault) : Blame := ⟨fault, fault⟩

/-! ### Words -/

/-- Reads the remaining letters of a word. -/
def Cursor.word : List UInt8 → Cursor → Except Fault Cursor
  | [], c => .ok c
  | letter :: letters, c =>
    match c.rest with
    | [] => .error (c.blame .endInValue)
    | b :: _ => if b = letter then word letters c.next else .error (c.blame .wordDue)

/-! ### Numerals -/

/-- Whether a byte is a digit. -/
def isDigit (b : UInt8) : Bool := 48 ≤ b && b ≤ 57

/-- The number that a digit denotes. -/
def digitValue (b : UInt8) : Nat := b.toNat - 48

/-- The digits at a place, and the place after them. -/
def Cursor.digits (c : Cursor) : List Nat × Cursor :=
  let run := c.rest.takeWhile isDigit
  (run.map digitValue, ⟨c.rest.drop run.length, c.offset + run.length⟩)

/-- The blame for a digit that is missing here. -/
def Cursor.digitMissing (c : Cursor) : Blame :=
  ⟨c.blame (if c.rest.isEmpty then .endInValue else .badNumeral), c.blame .badNumeral⟩

/-- At least one digit. -/
def Cursor.someDigits (c : Cursor) : Except Blame (List Nat × Cursor) :=
  match c.digits with
  | ([], _) => .error c.digitMissing
  | found => .ok found

/-- The digits before the point: a single zero, or digits that do not begin with zero. -/
def Cursor.wholeDigits (c : Cursor) : Except Blame (List Nat × Cursor) :=
  match c.rest with
  | 48 :: b :: _ =>
    if isDigit b then .error (.both (c.next.blame .badNumeral)) else .ok ([0], c.next)
  | _ => c.someDigits

/-- The digits after a point, if there is a point. -/
def Cursor.fractionDigits (c : Cursor) : Except Blame (Option (List Nat) × Cursor) :=
  match c.rest with
  | 46 :: _ => do
    let (digits, c) ← c.next.someDigits
    return (some digits, c)
  | _ => .ok (none, c)

/-- The sign and the digits of an exponent, if there is an exponent. -/
def Cursor.exponentDigits (c : Cursor) : Except Blame (Option (Bool × List Nat) × Cursor) :=
  let start (c : Cursor) : Bool × Cursor :=
    match c.rest with
    | 43 :: _ => (false, c.next)
    | 45 :: _ => (true, c.next)
    | _ => (false, c)
  match c.rest with
  | b :: _ =>
    if b = 101 || b = 69 then do
      let (negative, c) := start c.next
      let (digits, c) ← c.someDigits
      return (some (negative, digits), c)
    else .ok (none, c)
  | [] => .ok (none, c)

/-- A numeral, from its sign or first digit on. -/
def Cursor.numeral (c : Cursor) : Except Blame (Numeral × Cursor) := do
  let negative := c.rest.head? == some 45
  let (whole, c) ← (if negative then c.next else c).wholeDigits
  let (fraction, c) ← c.fractionDigits
  let (exponent, c) ← c.exponentDigits
  return (⟨negative, whole, fraction, exponent⟩, c)

/-- The number that a numeral denotes, given the place after it. -/
def numberAt (l : Numeral) (stop : Nat) : Except Fault Number :=
  match l.value with
  | .ok n => .ok n
  | .error left => .error ⟨.numberTooLarge, stop - left⟩

/-! ### Strings -/

/-- The number that a digit in base sixteen denotes. -/
def hexValue (b : UInt8) : Option Nat :=
  if 48 ≤ b && b ≤ 57 then some (b.toNat - 48)
  else if 97 ≤ b && b ≤ 102 then some (b.toNat - 87)
  else if 65 ≤ b && b ≤ 70 then some (b.toNat - 55)
  else none

/-- The number that four digits in base sixteen denote. -/
def hexQuad (a b c d : UInt8) : Option Nat := do
  let a ← hexValue a
  let b ← hexValue b
  let c ← hexValue c
  let d ← hexValue d
  return ((a * 16 + b) * 16 + c) * 16 + d

/-- What the byte after a backslash stands for, if it is not the letter of a code. -/
def shortEscape (b : UInt8) : Option UInt8 :=
  if b = 34 || b = 92 || b = 47 then some b
  else if b = 98 then some 8
  else if b = 102 then some 12
  else if b = 110 then some 10
  else if b = 114 then some 13
  else if b = 116 then some 9
  else none

/-- Passes over a string, from after its opening quote: the place after its closing quote. -/
def passString : List UInt8 → Nat → Except Fault Cursor
  | [], offset => .error ⟨.endInString, offset⟩
  | 34 :: rest, offset => .ok ⟨rest, offset + 1⟩
  | 92 :: 117 :: a :: b :: c :: d :: rest, offset =>
    if (hexQuad a b c d).isSome then passString rest (offset + 6)
    else .error ⟨.badEscape, offset + 6⟩
  | 92 :: 117 :: rest, offset => .error ⟨.endInString, offset + 2 + rest.length⟩
  | 92 :: b :: rest, offset =>
    if (shortEscape b).isSome then passString rest (offset + 2)
    else .error ⟨.badEscape, offset + 2⟩
  | [92], offset => .error ⟨.endInString, offset + 1⟩
  | b :: rest, offset =>
    if b < 32 then .error ⟨.controlCharacter, offset⟩ else passString rest (offset + 1)

/-- The bytes that spell the character with the given code. -/
def codeBytes (code : Nat) : List UInt8 := String.utf8EncodeChar (Char.ofNat code)

/-- Whether a code is the first half of a surrogate pair. -/
def isFirstHalf (code : Nat) : Bool := 0xD800 ≤ code && code ≤ 0xDBFF

/-- Whether a code is the second half of a surrogate pair. -/
def isSecondHalf (code : Nat) : Bool := 0xDC00 ≤ code && code ≤ 0xDFFF

/-- The code that a surrogate pair stands for. -/
def pairedCode (first second : Nat) : Nat :=
  (first - 0xD800) * 1024 + (second - 0xDC00) + 0x10000

/-- Reads a string, from after its opening quote: its bytes with all escapes resolved, after
those already read in reverse order, and the place after its closing quote. -/
def keepString (read : List UInt8) : List UInt8 → Nat → Except Fault (List UInt8 × Nat)
  | [], offset => .error ⟨.endInString, offset⟩
  | 34 :: _, offset => .ok (read.reverse, offset + 1)
  | 92 :: 117 :: a :: b :: c :: d :: rest, offset =>
    match hexQuad a b c d with
    | none => .error ⟨.badEscape, offset + 6⟩
    | some code =>
      if isSecondHalf code then .error ⟨.loneSurrogate, offset + 6⟩
      else if isFirstHalf code then
        match rest with
        | 92 :: 117 :: e :: f :: g :: h :: rest =>
          match hexQuad e f g h with
          | none => .error ⟨.badEscape, offset + 12⟩
          | some second =>
            if isSecondHalf second then
              keepString ((codeBytes (pairedCode code second)).reverse ++ read) rest
                (offset + 12)
            else .error ⟨.loneSurrogate, offset + 12⟩
        | 92 :: 117 :: rest => .error ⟨.endInString, offset + 8 + rest.length⟩
        | 92 :: _ :: _ => .error ⟨.unfinishedPair, offset + 8⟩
        | [92] => .error ⟨.endInString, offset + 7⟩
        | _ :: _ => .error ⟨.unfinishedPair, offset + 7⟩
        | [] => .error ⟨.endInString, offset + 6⟩
      else keepString ((codeBytes code).reverse ++ read) rest (offset + 6)
  | 92 :: 117 :: rest, offset => .error ⟨.endInString, offset + 2 + rest.length⟩
  | 92 :: b :: rest, offset =>
    match shortEscape b with
    | some plain => keepString (plain :: read) rest (offset + 2)
    | none => .error ⟨.badEscape, offset + 2⟩
  | [92], offset => .error ⟨.endInString, offset + 1⟩
  | b :: rest, offset =>
    if b < 32 then .error ⟨.controlCharacter, offset + 1⟩
    else keepString (b :: read) rest (offset + 1)

/-- A string as written in a text. -/
structure Spelling where
  /-- The text it spells, or why it spells none. -/
  text : Except Fault String
  /-- The place after the first byte between its quotes that belongs to no character, if
  there is one. -/
  flaw : Option Nat
  /-- The place after its closing quote. -/
  stop : Nat

/-- The text of a string, from after its opening quote. Where its bytes cease to be
well-formed is told by how many bytes are left then, with all escapes resolved: the place is
as many bytes before the end of the string. -/
def Cursor.keepString (c : Cursor) : Except Fault String := do
  let (bytes, stop) ← Json.keepString [] c.rest c.offset
  match Text.ofBytes? bytes with
  | some s => return s
  | none => throw ⟨.badEncoding, stop - (bytes.length - Text.soundLength 0 0 none bytes)⟩

/-- A string, from after its opening quote, and the place after it. -/
def Cursor.string (c : Cursor) : Except Blame (Spelling × Cursor) :=
  match passString c.rest c.offset with
  | .ok stop =>
    let raw := c.rest.take (stop.offset - c.offset - 1)
    let flaw := (Text.flaw? raw).map fun n => c.offset + n + 1
    .ok (⟨c.keepString, flaw, stop.offset⟩, stop)
  | .error skipped =>
    match c.keepString with
    | .error kept => .error ⟨kept, skipped⟩
    | .ok _ => .error (.both skipped)

end ApiSurface.Json
