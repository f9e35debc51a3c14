/-!
# Showing bytes as text

A path is a run of bytes, and a message has to show it as text. Bytes that are well-formed
UTF-8 stand for themselves. Elsewhere each longest run of bytes that begins a character but
does not finish it, and each byte that cannot begin one, is shown as one replacement character.

## Main definitions

* `showBytes`: the text shown for a run of bytes.
* `flaw?`: where a run of bytes ceases to be well-formed.
-/

namespace ApiSurface.Text

/-- The bounds of one byte of a character, both ends included. -/
structure ByteRange where
  /-- Least byte allowed. -/
  low : UInt8
  /-- Greatest byte allowed. -/
  high : UInt8

/-- Whether a byte lies in a range. -/
def ByteRange.admits (r : ByteRange) (b : UInt8) : Bool := r.low ≤ b && b ≤ r.high

/-- A byte that continues a character. -/
def trail : ByteRange := ⟨0x80, 0xBF⟩

/-- A character of which some bytes have been read: its code so far, and what may follow. -/
structure Unfinished where
  /-- The bits read so far. -/
  code : Nat
  /-- The range of the next byte. -/
  next : ByteRange
  /-- The ranges of the bytes after that. -/
  later : List ByteRange

/-- What a byte does at the start of a character. -/
inductive Opening
  | whole (c : Char)
  | part (u : Unfinished)
  | wrong

/-- Reads the first byte of a character. Overlong forms, surrogates and codes beyond the
last plane are excluded by the range of the second byte. -/
def opening (b : UInt8) : Opening :=
  if b < 0x80 then .whole (Char.ofNat b.toNat)
  else if b < 0xC2 then .wrong
  else if b < 0xE0 then .part ⟨b.toNat - 0xC0, trail, []⟩
  else if b = 0xE0 then .part ⟨0, ⟨0xA0, 0xBF⟩, [trail]⟩
  else if b = 0xED then .part ⟨0xD, ⟨0x80, 0x9F⟩, [trail]⟩
  else if b < 0xF0 then .part ⟨b.toNat - 0xE0, trail, [trail]⟩
  else if b = 0xF0 then .part ⟨0, ⟨0x90, 0xBF⟩, [trail, trail]⟩
  else if b < 0xF4 then .part ⟨b.toNat - 0xF0, trail, [trail, trail]⟩
  else if b = 0xF4 then .part ⟨4, ⟨0x80, 0x8F⟩, [trail, trail]⟩
  else .wrong

/-- Shown in place of bytes that are no character. -/
def replacement : Char := '\uFFFD'

/-- The characters shown for the bytes that follow a possibly unfinished character. -/
def shownFrom : Option Unfinished → List UInt8 → List Char
  | none, [] => []
  | some _, [] => [replacement]
  | some u, b :: rest =>
    if u.next.admits b then
      let code := u.code * 64 + (b.toNat - 0x80)
      match u.later with
      | [] => Char.ofNat code :: shownFrom none rest
      | next :: later => shownFrom (some ⟨code, next, later⟩) rest
    else
      replacement ::
        match opening b with
        | .whole c => c :: shownFrom none rest
        | .part u => shownFrom (some u) rest
        | .wrong => replacement :: shownFrom none rest
  | none, b :: rest =>
    match opening b with
    | .whole c => c :: shownFrom none rest
    | .part u => shownFrom (some u) rest
    | .wrong => replacement :: shownFrom none rest

/-- The text shown for a run of bytes. -/
def showBytes (bytes : List UInt8) : String := String.ofList (shownFrom none bytes)

/-- The text that a run of bytes spells, if it is well-formed. -/
def ofBytes? (bytes : List UInt8) : Option String := String.fromUTF8? ⟨bytes.toArray⟩

/-- The length of the longest start of a run that is well-formed. Of the bytes passed so
far, some are in whole characters, and a character may be unfinished. -/
def soundLength (inCharacters passed : Nat) : Option Unfinished → List UInt8 → Nat
  | none, b :: rest =>
    match opening b with
    | .whole _ => soundLength (passed + 1) (passed + 1) none rest
    | .part u => soundLength inCharacters (passed + 1) (some u) rest
    | .wrong => inCharacters
  | some u, b :: rest =>
    if u.next.admits b then
      match u.later with
      | [] => soundLength (passed + 1) (passed + 1) none rest
      | next :: later => soundLength inCharacters (passed + 1) (some ⟨0, next, later⟩) rest
    else inCharacters
  | _, [] => inCharacters

/-- The number of bytes before the first one that belongs to no character, if a run
has such bytes. -/
def flaw? (bytes : List UInt8) : Option Nat :=
  if (ofBytes? bytes).isSome then none else some (soundLength 0 0 none bytes)

/-- The bytes that spell a text. -/
def bytes (s : String) : List UInt8 := s.toUTF8.toList

end ApiSurface.Text
