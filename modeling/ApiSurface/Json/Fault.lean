import ApiSurface.Json.Number
import ApiSurface.Text.Quoted

/-!
# What can be wrong with a JSON text

A fault is a cause and the place in the text where it was met. The place is kept as a number
of bytes and shown as a line and a column; columns count bytes.

## Main definitions

* `Cause`: what is wrong; `Cause.message`: its wording.
* `Fault`: a cause at a place of a text.
* `Diagnostic`: a cause with a line and a column; `Diagnostic.message`: its wording.
-/

namespace ApiSurface.Json

/-- What a value turned out to be where something else was due. -/
inductive Found
  | null
  | bool (b : Bool)
  | number (n : Number)
  | text (s : String)
  | sequence
  | map
  deriving DecidableEq

/-- The wording for what was found. -/
def Found.message : Found → String
  | .null => "null"
  | .bool b => "boolean `" ++ (if b then "true" else "false") ++ "`"
  | .number (.integer i) => "integer `" ++ (Number.integer i).render ++ "`"
  | .number (.real x) => "floating point `" ++ (Number.real x).render ++ "`"
  | .text s => "string " ++ Text.quoted s
  | .sequence => "sequence"
  | .map => "map"

/-- What is wrong with a text. -/
inductive Cause
  /-- The text ends where a value is due. -/
  | endInValue
  /-- The text ends inside an array. -/
  | endInArray
  /-- The text ends inside an object. -/
  | endInObject
  /-- The text ends inside a string. -/
  | endInString
  /-- No value begins with the byte found. -/
  | valueDue
  /-- A word that begins as `null`, `true` or `false` goes on otherwise. -/
  | wordDue
  /-- Neither a comma nor the end of the array follows an item. -/
  | arrayBreakDue
  /-- Neither a comma nor the end of the object follows a member. -/
  | objectBreakDue
  /-- No colon follows a key. -/
  | colonDue
  /-- A numeral lacks a digit or begins with a needless zero. -/
  | badNumeral
  /-- A number is larger than any floating-point number. -/
  | numberTooLarge
  /-- A backslash begins no escape. -/
  | badEscape
  /-- A control character stands in a string. -/
  | controlCharacter
  /-- A string is not well-formed UTF-8. -/
  | badEncoding
  /-- An escape spells a surrogate that its pair does not complete. -/
  | loneSurrogate
  /-- No second escape follows an escape that spells the first half of a surrogate pair. -/
  | unfinishedPair
  /-- Something follows the end. -/
  | trailingCharacters
  /-- Nothing follows a comma. -/
  | trailingComma
  /-- Something other than a string stands where a key is due. -/
  | keyDue
  /-- Arrays and objects are nested too deeply. -/
  | tooDeep
  /-- A required member is missing. -/
  | missingField (name : String)
  /-- A member occurs twice. -/
  | duplicateField (name : String)
  /-- A name is not one of those allowed. -/
  | unknownVariant (name : String) (allowed : List String)
  /-- A value is of another kind than the one due. -/
  | wrongType (found : Found) (due : String)
  /-- A value is of the kind due but out of range. -/
  | wrongValue (found : Found) (due : String)
  /-- An array has too few or too many items, or an object too many members. -/
  | wrongLength (length : Nat) (due : String)
  /-- Something is wrong with a text inside the text, at a line and column of its own. -/
  | embedded (cause : Cause) (line column : Nat)
  deriving DecidableEq

/-- The allowed names of an unknown one, in words. -/
def allowedNames : List String → String
  | [] => "there are no variants"
  | [a] => "expected `" ++ a ++ "`"
  | [a, b] => "expected `" ++ a ++ "` or `" ++ b ++ "`"
  | names => "expected one of " ++ String.intercalate ", " (names.map fun a => "`" ++ a ++ "`")

/-- The wording for a place. -/
def placeMessage (line column : Nat) : String :=
  " at line " ++ toString line ++ " column " ++ toString column

/-- The wording for a cause. -/
def Cause.message : Cause → String
  | .endInValue => "EOF while parsing a value"
  | .endInArray => "EOF while parsing a list"
  | .endInObject => "EOF while parsing an object"
  | .endInString => "EOF while parsing a string"
  | .valueDue => "expected value"
  | .wordDue => "expected ident"
  | .arrayBreakDue => "expected `,` or `]`"
  | .objectBreakDue => "expected `,` or `\x7d`"
  | .colonDue => "expected `:`"
  | .badNumeral => "invalid number"
  | .numberTooLarge => "number out of range"
  | .badEscape => "invalid escape"
  | .controlCharacter => "control character (\\u0000-\\u001F) found while parsing a string"
  | .badEncoding => "invalid unicode code point"
  | .loneSurrogate => "lone leading surrogate in hex escape"
  | .unfinishedPair => "unexpected end of hex escape"
  | .trailingCharacters => "trailing characters"
  | .trailingComma => "trailing comma"
  | .keyDue => "key must be a string"
  | .tooDeep => "recursion limit exceeded"
  | .missingField name => "missing field `" ++ name ++ "`"
  | .duplicateField name => "duplicate field `" ++ name ++ "`"
  | .unknownVariant name allowed =>
    "unknown variant `" ++ name ++ "`, " ++ allowedNames allowed
  | .wrongType found due => "invalid type: " ++ found.message ++ ", expected " ++ due
  | .wrongValue found due => "invalid value: " ++ found.message ++ ", expected " ++ due
  | .wrongLength length due => "invalid length " ++ toString length ++ ", expected " ++ due
  | .embedded cause line column => cause.message ++ placeMessage line column

/-- A cause at a place. -/
structure Fault where
  /-- What is wrong. -/
  cause : Cause
  /-- How many bytes of the text come before the place. -/
  offset : Nat
  deriving DecidableEq

/-- Line and column after the given number of bytes: lines count from one, columns are the
bytes since the last line break. -/
def lineAndColumn (line column : Nat) : Nat → List UInt8 → Nat × Nat
  | 0, _ => (line, column)
  | _, [] => (line, column)
  | n + 1, b :: rest =>
    if b = 10 then lineAndColumn (line + 1) 0 n rest
    else lineAndColumn line (column + 1) n rest

/-- A cause with the line and column of its place. -/
structure Diagnostic where
  cause : Cause
  line : Nat
  column : Nat
  deriving DecidableEq

/-- A fault with its place in a text as a line and a column. What is wrong with a text
inside the text keeps the place that it has there. -/
def Fault.locate (text : List UInt8) (fault : Fault) : Diagnostic :=
  match fault.cause with
  | .embedded cause line column => ⟨cause, line, column⟩
  | cause =>
    let (line, column) := lineAndColumn 1 0 fault.offset text
    ⟨cause, line, column⟩

/-- What is wrong with a text, for the text around it. -/
def Diagnostic.embedded (d : Diagnostic) : Cause := .embedded d.cause d.line d.column

/-- The wording for a diagnostic. -/
def Diagnostic.message (d : Diagnostic) : String :=
  d.cause.message ++ placeMessage d.line d.column

end ApiSurface.Json
