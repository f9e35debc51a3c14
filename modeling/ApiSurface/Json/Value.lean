import ApiSurface.Json.Number
import ApiSurface.Table
import ApiSurface.Text.Quoted

/-!
# JSON values

A value is a JSON text without its layout. The members of an object are kept in a list;
`Value.sorted` brings them, at every depth, into the increasing order in which a value that
nothing else is known about is written.

## Main definitions

* `Value`: a JSON value.
* `Value.render`: the compact text of a value.
* `Value.sorted`: the value with all members in key order.
-/

namespace ApiSurface.Json

/-- A JSON value. -/
inductive Value
  | null
  | bool (b : Bool)
  | number (n : Number)
  | text (s : String)
  | array (items : List Value)
  | object (members : List (String × Value))
  deriving Inhabited

/-! ### Writing -/

/-- A control character as a code of four digits in base sixteen. -/
def codeEscape (c : Char) : List Char :=
  let digits := Text.hexDigits c.toNat
  ['\\', 'u'] ++ List.replicate (4 - digits.length) '0' ++ digits

/-- A character as it stands in a string. -/
def escapeChar (c : Char) : List Char :=
  match c with
  | '"' => ['\\', '"']
  | '\\' => ['\\', '\\']
  | '\x08' => ['\\', 'b']
  | '\x0c' => ['\\', 'f']
  | '\n' => ['\\', 'n']
  | '\r' => ['\\', 'r']
  | '\t' => ['\\', 't']
  | c => if c.toNat < 32 then codeEscape c else [c]

/-- The characters of a string literal. -/
def renderString (s : String) : List Char := '"' :: s.toList.flatMap escapeChar ++ ['"']

mutual
/-- The characters of a value, without blanks. -/
def Value.chars : Value → List Char
  | .null => ['n', 'u', 'l', 'l']
  | .bool true => ['t', 'r', 'u', 'e']
  | .bool false => ['f', 'a', 'l', 's', 'e']
  | .number n => n.render.toList
  | .text s => renderString s
  | .array [] => ['[', ']']
  | .array (item :: items) => '[' :: item.chars ++ itemChars items
  | .object [] => ['\x7b', '\x7d']
  | .object ((key, value) :: members) =>
    '\x7b' :: renderString key ++ ':' :: value.chars ++ memberChars members

/-- The characters of the later items of an array, and its end. -/
def itemChars : List Value → List Char
  | [] => [']']
  | item :: items => ',' :: item.chars ++ itemChars items

/-- The characters of the later members of an object, and its end. -/
def memberChars : List (String × Value) → List Char
  | [] => ['\x7d']
  | (key, value) :: members =>
    ',' :: renderString key ++ ':' :: value.chars ++ memberChars members
end

/-- The compact text of a value. -/
def Value.render (v : Value) : String := String.ofList v.chars

/-! ### Order of members -/

mutual
/-- The value with the members of every object in key order; of several members with one key
the last one counts. -/
def Value.sorted : Value → Value
  | .array items => .array (sortedItems items)
  | .object members => .object (sortedMembers members [])
  | v => v

/-- The items of an array, each sorted. -/
def sortedItems : List Value → List Value
  | [] => []
  | item :: items => item.sorted :: sortedItems items

/-- The members of an object, each sorted, added to those collected so far. -/
def sortedMembers : List (String × Value) → List (String × Value) → List (String × Value)
  | [], collected => collected
  | (key, value) :: members, collected =>
    sortedMembers members (insertEntry key value.sorted collected)
end

end ApiSurface.Json
