import ApiSurface.Json.Document

/-!
# Embedded texts

An object whose first key is the embedding key stands for the value that the text under the key
spells. Such a text may embed further ones, each shorter than the one around it.

What a record keeps of an object it does not know is first read as it stands, and its
embedded texts are opened when all of it has been read. Inside an embedded text the further
ones are opened where they stand, so that a fault in one of them is met before the faults
that follow it.

## Main definitions

* `embeddingKey`: the key that marks an embedded text.
* `Node.resolve`: the value that a node spells, with the embedded texts
  opened where they stand.
* `opened`: the value that an embedded text spells.
* `Value.settle`: a value that was read as it stands, with its embedded texts opened and its
  members in key order.
-/

namespace ApiSurface.Json

/-- The key of an object that stands for the value that the text under it spells. -/
def embeddingKey : String := "$serde_json::private::RawValue"

/-- The embedded text that a node spells under the embedding key. -/
def Node.embeddedText (node : Node) : Except Fault String := node.readText "raw value"

/-! ### Embedded texts where they stand -/

/-- The embedded text of an object with the given members, if the object stands for one. -/
def Members.embeddedText : Members → Except Fault (Option String)
  | .member key _ value _ _ => do
    if (← key.text) = embeddingKey then return some (← value.embeddedText) else return none
  | _ => .ok none

/-- Checks that no member follows the first one, which has the embedded text. -/
def Members.checkAlone : Members → Except Fault Unit
  | .member _ _ _ _ (.close _) => .ok ()
  | .member _ _ _ _ (.ended stop) => .error ⟨.endInObject, stop⟩
  | .member _ _ _ _ (.stray seen) => .error ⟨.trailingCharacters, seen⟩
  | .member _ _ _ after _ => .error ⟨.trailingComma, after + 1⟩
  | _ => .ok ()

mutual
/-- The value that a node spells, with the members of objects in key order, where `openText`
gives the value of an embedded text. Of several members with one key the last one counts. -/
def Node.resolve (openText : String → Except Cause Value) (depth : Depth) :
    Node → Except Fault Value
  | .null _ => .ok .null
  | .bool b _ => .ok (.bool b)
  | .number _ value _ => value.map Value.number
  | .text spelling => spelling.text.map Value.text
  | .array start items => do
    let depth ← depth.enter start
    return .array (← items.resolve openText depth)
  | .object start members => do
    let depth ← depth.enter start
    match ← members.embeddedText with
    | some text =>
      let value ← (openText text).mapError fun cause => ⟨cause, start⟩
      members.checkAlone
      return value
    | none => return .object (← members.resolve openText depth [])
  | .broken _ blame | .brokenText blame => .error blame.kept
  | .missing stop => .error ⟨.endInValue, stop⟩

/-- The values that some items spell. -/
def Items.resolve (openText : String → Except Cause Value) (depth : Depth) :
    Items → Except Fault (List Value)
  | .item _ value rest => do
    let value ← value.resolve openText depth
    return value :: (← rest.resolve openText depth)
  | last => last.finish []

/-- The members that some members spell, added to those collected so far. -/
def Members.resolve (openText : String → Except Cause Value) (depth : Depth) :
    Members → List (String × Value) → Except Fault (List (String × Value))
  | .member key _ value _ rest, collected => do
    let key ← key.text
    let value ← value.resolve openText depth
    rest.resolve openText depth (insertEntry key value collected)
  | last, collected => last.finish collected
end

/-- The value that an embedded text spells, given a bound on its length. A text of no length
spells none. -/
def openedWithin : Nat → String → Except Cause Value
  | 0, _ => .error (.embedded .endInValue 1 0)
  | bound + 1, s =>
    let text := Text.bytes s
    ((Document.ofBytes text).use (Node.resolve (openedWithin bound) .ofText)).mapError
      fun fault => (fault.locate text).embedded

/-- The value that an embedded text spells. -/
def opened (s : String) : Except Cause Value := openedWithin s.utf8ByteSize s

/-! ### Embedded texts of a value -/

/-- The value that an object with the given members stands for, if it embeds a text. -/
def embeddedValue? : List (String × Value) → Except Cause (Option Value)
  | [] => .ok none
  | (key, value) :: rest => do
    if key ≠ embeddingKey then return none
    let value ← opened (← value.node.embeddedText.mapError Fault.cause)
    if rest.isEmpty then return some value
    else throw (.wrongLength (rest.length + 1) "1 element in map")

mutual
/-- A value that was read as it stands, with its embedded texts opened and the members of
objects in key order; of several members with one key the last one counts. -/
def Value.settle : Value → Except Cause Value
  | .array items => do return .array (← settleItems items)
  | .object members => do
    match ← embeddedValue? members with
    | some value => return value
    | none => return .object (← settleMembers members [])
  | value => .ok value

/-- The items of an array, each settled. -/
def settleItems : List Value → Except Cause (List Value)
  | [] => .ok []
  | item :: items => do
    let item ← item.settle
    return item :: (← settleItems items)

/-- The members of an object, each settled, added to those collected so far. -/
def settleMembers :
    List (String × Value) → List (String × Value) → Except Cause (List (String × Value))
  | [], collected => .ok collected
  | (key, value) :: members, collected => do
    let value ← value.settle
    settleMembers members (insertEntry key value collected)
end

end ApiSurface.Json
