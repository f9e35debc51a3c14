import ApiSurface.Json.Lexical
import ApiSurface.Json.Embedded
import ApiSurface.Proofs.Json.Strings

/-!
# Written values

A text says a value, and says it in one of many ways: there are blanks between its tokens,
the members of an object stand in some order, and a character of a string stands for itself
or is escaped. A written value is the syntax tree of a text, with all of that in place.
Written values say the same if they differ in nothing else. The numerals are the same to the
letter, and strings are compared by their code units in UTF-16, since an escape may stand
for one half of a character; it need not stand next to the other half.

## Main definitions

* `Blank`, `Piece`, `WrittenNumeral`, `Written`: the parts of a text, each with its characters.
* `Page`: a whole text, with blanks before and after its value.
* `spelled?`: the text that a written string stands for.
* `Written.SaysSame`: written values that differ only in their layout.
* `Written.IsOrderly`: written values without repeated keys, and without the embedding key.
-/

namespace ApiSurface.Json

/-! ### Blanks -/

/-- A character that may stand between tokens. -/
inductive Blank
  | space
  | lineFeed
  | tab
  | carriageReturn

/-- The character of a blank. -/
def Blank.char : Blank → Char
  | .space => ' '
  | .lineFeed => '\n'
  | .tab => '\t'
  | .carriageReturn => '\r'

/-- The characters of some blanks in a row. -/
def gapChars (gap : List Blank) : List Char := gap.map Blank.char

/-! ### Strings -/

/-- A digit in base sixteen, which is a small or a capital letter if it is above nine. -/
structure HexDigit where
  value : Fin 16
  capital : Bool

/-- The character of a digit in base sixteen. -/
def HexDigit.char (d : HexDigit) : Char :=
  let c := Nat.digitChar d.value
  if d.capital then c.toUpper else c

/-- The letters that may follow a backslash, other than that of a code. -/
inductive Letter
  | quote
  | backslash
  | slash
  | backspace
  | formFeed
  | lineFeed
  | carriageReturn
  | tab

/-- The character of a letter. -/
def Letter.char : Letter → Char
  | .quote => '"'
  | .backslash => '\\'
  | .slash => '/'
  | .backspace => 'b'
  | .formFeed => 'f'
  | .lineFeed => 'n'
  | .carriageReturn => 'r'
  | .tab => 't'

/-- The character that a letter after a backslash stands for. -/
def Letter.escaped : Letter → Char
  | .quote => '"'
  | .backslash => '\\'
  | .slash => '/'
  | .backspace => '\x08'
  | .formFeed => '\x0c'
  | .lineFeed => '\n'
  | .carriageReturn => '\r'
  | .tab => '\t'

/-- A piece of a string: a character that stands for itself, a letter after a backslash, or
the code of a unit of UTF-16. -/
inductive Piece
  | plain (c : Char) (allowed : 32 ≤ c.toNat ∧ c ≠ '"' ∧ c ≠ '\\')
  | letter (l : Letter)
  | code (a b c d : HexDigit)

/-- The characters of a piece. -/
def Piece.chars : Piece → List Char
  | .plain c _ => [c]
  | .letter l => ['\\', l.char]
  | .code a b c d => ['\\', 'u', a.char, b.char, c.char, d.char]

/-- The characters of a string literal. -/
def stringChars (pieces : List Piece) : List Char := '"' :: pieces.flatMap Piece.chars ++ ['"']

/-- The units of UTF-16 that a character is made of. -/
def charUnits (c : Char) : List Nat :=
  if c.toNat < 0x10000 then [c.toNat]
  else [0xD800 + (c.toNat - 0x10000) / 1024, 0xDC00 + (c.toNat - 0x10000) % 1024]

/-- The unit of UTF-16 that a code of four digits denotes. -/
def codeUnit (a b c d : HexDigit) : Nat :=
  ((a.value * 16 + b.value) * 16 + c.value) * 16 + d.value

/-- The units of UTF-16 that a piece stands for. -/
def Piece.units : Piece → List Nat
  | .plain c _ => charUnits c
  | .letter l => charUnits l.escaped
  | .code a b c d => [codeUnit a b c d]

/-- The units of UTF-16 that a string stands for. -/
def stringUnits (pieces : List Piece) : List Nat := pieces.flatMap Piece.units

/-- The characters that units of UTF-16 are made of, if each half of a surrogate pair stands
with the other half. -/
def decodeUnits : List Nat → Option (List Char)
  | [] => some []
  | unit :: rest =>
    if isSecondHalf unit then none
    else if isFirstHalf unit then
      match rest with
      | second :: rest =>
        if isSecondHalf second then
          (decodeUnits rest).map (Char.ofNat (pairedCode unit second) :: ·)
        else none
      | [] => none
    else (decodeUnits rest).map (Char.ofNat unit :: ·)

/-- The text that a string stands for, if it stands for one. -/
def spelled? (pieces : List Piece) : Option String :=
  (decodeUnits (stringUnits pieces)).map String.ofList

theorem spelled?_congr {pieces pieces' : List Piece}
    (h : stringUnits pieces = stringUnits pieces') : spelled? pieces = spelled? pieces' := by
  rw [spelled?, spelled?, h]

/-! ### Numerals -/

/-- One digit or more. -/
structure Digits where
  first : Fin 10
  later : List (Fin 10)

/-- All digits of a run. -/
def Digits.all (ds : Digits) : List (Fin 10) := ds.first :: ds.later

/-- The character of a digit. -/
def digitChar (d : Fin 10) : Char := Nat.digitChar d

/-- The characters of some digits. -/
def Digits.chars (ds : Digits) : List Char := ds.all.map digitChar

/-- The numbers that some digits denote. -/
def Digits.values (ds : Digits) : List Nat := ds.all.map Fin.val

/-- An exponent, with its letter and its sign as written. -/
structure Exponent where
  capital : Bool
  /-- Whether the sign is a minus, if there is a sign. -/
  sign : Option Bool
  digits : Digits

/-- The character that begins an exponent. -/
def exponentMark (capital : Bool) : Char := if capital then 'E' else 'e'

/-- The character of a sign. -/
def signChar (negative : Bool) : Char := if negative then '-' else '+'

/-- The characters of an exponent. -/
def Exponent.chars (e : Exponent) : List Char :=
  exponentMark e.capital :: (e.sign.toList.map signChar ++ e.digits.chars)

/-- A numeral as written. Digits before the point do not begin with zero, unless there
is only one. -/
structure WrittenNumeral where
  negative : Bool
  whole : Digits
  fraction : Option Digits
  exponent : Option Exponent
  canonical : whole.first = 0 → whole.later = []

/-- The characters of a point and the digits after it. -/
def fractionChars : Option Digits → List Char
  | none => []
  | some digits => '.' :: digits.chars

/-- The characters of an exponent, if there is one. -/
def exponentChars : Option Exponent → List Char
  | none => []
  | some exponent => exponent.chars

namespace WrittenNumeral

variable (l : WrittenNumeral)

/-- The characters of a numeral. -/
def chars : List Char :=
  (if l.negative then ['-'] else []) ++
    (l.whole.chars ++ (fractionChars l.fraction ++ exponentChars l.exponent))

/-- The parts of a numeral, without the way the exponent is marked. -/
def numeral : Numeral :=
  ⟨l.negative, l.whole.values, l.fraction.map Digits.values,
    l.exponent.map fun e => (e.sign == some true, e.digits.values)⟩

end WrittenNumeral

/-! ### Values -/

/-- The blanks around an item of an array. -/
structure Margins where
  before : List Blank
  after : List Blank

/-- What a member of an object has besides its value: its key, and the
blanks around its parts. -/
structure Lead where
  before : List Blank
  key : List Piece
  beforeColon : List Blank
  afterColon : List Blank
  after : List Blank

/-- A value as written. An array or object has a gap of its own after its bracket, which is
where the blanks of an empty one stand. -/
inductive Written
  | null
  | bool (b : Bool)
  | number (l : WrittenNumeral)
  | text (pieces : List Piece)
  | array (gap : List Blank) (items : List (Margins × Written))
  | object (gap : List Blank) (members : List (Lead × Written))

mutual
/-- The characters of a written value. -/
def Written.chars : Written → List Char
  | .null => ['n', 'u', 'l', 'l']
  | .bool true => ['t', 'r', 'u', 'e']
  | .bool false => ['f', 'a', 'l', 's', 'e']
  | .number l => l.chars
  | .text pieces => stringChars pieces
  | .array gap items => '[' :: gapChars gap ++ writtenItems [] items
  | .object gap members => '\x7b' :: gapChars gap ++ writtenMembers [] members

/-- The characters of some items, the first of them after some mark and the others after
commas, and of the closing bracket. -/
def writtenItems (mark : List Char) : List (Margins × Written) → List Char
  | [] => [']']
  | (margins, item) :: items =>
    mark ++ gapChars margins.before ++ item.chars ++ gapChars margins.after ++
      writtenItems [','] items

/-- The characters of some members, the first of them after some mark and the others after
commas, and of the closing brace. -/
def writtenMembers (mark : List Char) : List (Lead × Written) → List Char
  | [] => ['\x7d']
  | (lead, value) :: members =>
    mark ++ gapChars lead.before ++ stringChars lead.key ++ gapChars lead.beforeColon ++ ':' ::
      gapChars lead.afterColon ++ value.chars ++ gapChars lead.after ++
      writtenMembers [','] members
end

/-- A whole text: a value with blanks before and after it. -/
structure Page where
  before : List Blank
  value : Written
  after : List Blank

/-- The bytes of a text. -/
def Page.bytes (p : Page) : List UInt8 :=
  Text.encode (gapChars p.before ++ p.value.chars ++ gapChars p.after)

/-- A property holds of all written values if it holds of each one whose items or
members have it. -/
theorem Written.rec_parts {P : Written → Prop} (null : P .null) (bool : ∀ b, P (.bool b))
    (number : ∀ l, P (.number l)) (text : ∀ pieces, P (.text pieces))
    (array : ∀ gap items, (∀ item ∈ items, P item.2) → P (.array gap items))
    (object : ∀ gap members, (∀ member ∈ members, P member.2) → P (.object gap members))
    (w : Written) : P w := by
  match w with
  | .null => exact null
  | .bool b => exact bool b
  | .number l => exact number l
  | .text pieces => exact text pieces
  | .array gap items =>
    refine array gap items fun (_, item) hitem => ?_
    have := List.sizeOf_lt_of_mem hitem
    exact Written.rec_parts null bool number text array object item
  | .object gap members =>
    refine object gap members fun (_, value) hmember => ?_
    have := List.sizeOf_lt_of_mem hmember
    exact Written.rec_parts null bool number text array object value
termination_by sizeOf w
decreasing_by all_goals simp_all; omega

/-! ### Layout -/

/-- Whether two written values say the same: they differ only in blanks, in the order of
members, and in how the characters of strings are written. -/
inductive Written.SaysSame : Written → Written → Prop
  | null : SaysSame .null .null
  | bool (b : Bool) : SaysSame (.bool b) (.bool b)
  | number (l : WrittenNumeral) : SaysSame (.number l) (.number l)
  | text {pieces pieces' : List Piece} :
      stringUnits pieces = stringUnits pieces' → SaysSame (.text pieces) (.text pieces')
  | array {gap gap' : List Blank} {items items' : List (Margins × Written)} :
      List.Forall₂ (fun item item' => SaysSame item.2 item'.2) items items' →
      SaysSame (.array gap items) (.array gap' items')
  | object {gap gap' : List Blank} {members ordered members' : List (Lead × Written)} :
      List.Forall₂ (fun member member' => stringUnits member.1.key = stringUnits member'.1.key)
        members ordered →
      List.Forall₂ (fun member member' => SaysSame member.2 member'.2) members ordered →
      ordered.Perm members' → SaysSame (.object gap members) (.object gap' members')

/-- What says the same as another value has that said by it. -/
theorem Written.SaysSame.symm {w w' : Written} (h : w.SaysSame w') : w'.SaysSame w := by
  induction w using Written.rec_parts generalizing w' with
  | null =>
    cases h
    exact .null
  | bool b =>
    cases h
    exact .bool b
  | number l =>
    cases h
    exact .number l
  | text pieces =>
    cases h with
    | text hunits => exact .text hunits.symm
  | array gap items ih =>
    cases h with
    | array hitems =>
      exact .array ((Except.forall₂_mem hitems).imp fun item _ h => ih item h.1 h.2.2).flip
  | object gap members ih =>
    cases h with
    | object hkeys hvalues perm =>
      have hswap := (Except.forall₂_mem hvalues).mp
        (fun member _ h hkey => And.intro (Eq.symm hkey) (ih member h.1 h.2.2)) hkeys
      obtain ⟨ordered', hordered, hperm⟩ := List.perm_comp_forall₂ perm.symm hswap.flip
      exact .object (hordered.imp fun _ _ h => h.1) (hordered.imp fun _ _ h => h.2) hperm

/-- The texts that the keys of some members stand for. -/
def keysOf (members : List (Lead × Written)) : List String :=
  members.filterMap fun member => spelled? member.1.key

/-- Whether no object repeats a key or has the embedding key. -/
inductive Written.IsOrderly : Written → Prop
  | null : IsOrderly .null
  | bool (b : Bool) : IsOrderly (.bool b)
  | number (l : WrittenNumeral) : IsOrderly (.number l)
  | text (pieces : List Piece) : IsOrderly (.text pieces)
  | array {gap : List Blank} {items : List (Margins × Written)} :
      (∀ item ∈ items, IsOrderly item.2) → IsOrderly (.array gap items)
  | object {gap : List Blank} {members : List (Lead × Written)} :
      (keysOf members).Nodup → embeddingKey ∉ keysOf members →
      (∀ member ∈ members, IsOrderly member.2) → IsOrderly (.object gap members)

theorem isOrderly_array_iff {gap : List Blank} {items : List (Margins × Written)} :
    (Written.array gap items).IsOrderly ↔ ∀ item ∈ items, item.2.IsOrderly := by
  constructor
  · intro h
    cases h with
    | array heach => exact heach
  · exact .array

theorem isOrderly_object_iff {gap : List Blank} {members : List (Lead × Written)} :
    (Written.object gap members).IsOrderly ↔
      (keysOf members).Nodup ∧ embeddingKey ∉ keysOf members ∧
      ∀ member ∈ members, member.2.IsOrderly := by
  constructor
  · intro h
    cases h with
    | object hnodup hlacks heach => exact ⟨hnodup, hlacks, heach⟩
  · rintro ⟨hnodup, hlacks, heach⟩
    exact .object hnodup hlacks heach

end ApiSurface.Json
