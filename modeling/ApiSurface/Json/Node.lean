import ApiSurface.Json.Lexical
import ApiSurface.Json.Value

/-!
# JSON texts, read as far as they go

Reading a text never fails: it gives a tree that holds what could be read, and where reading
had to stop, what stopped it. Whether a fault matters is for the user of the tree to say,
who meets it, if at all, in the order of the text, after whatever else is wrong before it.

Each part of the tree carries the places that messages about it need. A place called `seen`
is one byte after the byte that was looked at, or the end of the text.

## Main definitions

* `Node`, `Items`, `Members`: values, the items of an array, the members of an object.
* `Node.skip`: the check of a value that is passed over.
* `Node.keep`: the value that a node spells.
* `mismatch`: the fault of a node that is not of the kind due.
* `Value.node`: a value as a tree without places.
-/

namespace ApiSurface.Json

mutual
/-- A value of a text. -/
inductive Node
  | null (start : Nat)
  | bool (b : Bool) (start : Nat)
  | number (start : Nat) (value : Except Fault Number) (stop : Nat)
  | text (spelling : Spelling)
  | array (start : Nat) (items : Items)
  | object (start : Nat) (members : Members)
  /-- Something that is no value, and no string either. -/
  | broken (start : Nat) (blame : Blame)
  /-- A string that is not written properly. -/
  | brokenText (blame : Blame)
  /-- The end of the text, where a value is due. -/
  | missing (stop : Nat)

/-- The items of an array from some item on, as far as they could be read. -/
inductive Items
  /-- The closing bracket, before the given place. -/
  | close (stop : Nat)
  | item (seen : Nat) (value : Node) (rest : Items)
  /-- The closing bracket, right after a comma. -/
  | trailing (seen : Nat)
  /-- Neither a comma nor the closing bracket after an item. -/
  | stray (seen : Nat)
  /-- The end of the text. -/
  | ended (stop : Nat)

/-- The members of an object from some member on, as far as they could be read. -/
inductive Members
  /-- The closing brace, before the given place. -/
  | close (stop : Nat)
  /-- A member. The place `pause` is the first after the key that is not blank, or after a
  closing brace there; the place `after` is the first after the value that is not blank. -/
  | member (key : Spelling) (pause : Nat) (value : Node) (after : Nat) (rest : Members)
  /-- A key without a colon. -/
  | halted (key : Spelling) (pause : Nat) (fault : Fault)
  /-- A key that is no proper string. -/
  | badKey (blame : Blame)
  /-- Something other than a string where a key is due. -/
  | noKey (seen : Nat)
  /-- The closing brace, right after a comma. -/
  | trailing (seen : Nat)
  /-- The end of the text, right after a comma. -/
  | unfinished (stop : Nat)
  /-- Neither a comma nor the closing brace after a member. -/
  | stray (seen : Nat)
  /-- The end of the text. -/
  | ended (stop : Nat)
end

instance : Inhabited Node := ⟨.null 0⟩

/-! ### Passing over a value -/

mutual
/-- The first fault of a value that is passed over. -/
def Node.skip : Node → Except Fault Unit
  | .array _ items => items.skip
  | .object _ members => members.skip
  | .broken _ blame | .brokenText blame => .error blame.skipped
  | .missing stop => .error ⟨.endInValue, stop⟩
  | _ => .ok ()

/-- The first fault of items that are passed over. -/
def Items.skip : Items → Except Fault Unit
  | .close _ => .ok ()
  | .item _ value rest => do value.skip; rest.skip
  | .trailing seen => .error ⟨.valueDue, seen⟩
  | .stray seen => .error ⟨.arrayBreakDue, seen⟩
  | .ended stop => .error ⟨.endInArray, stop⟩

/-- The first fault of members that are passed over. -/
def Members.skip : Members → Except Fault Unit
  | .close _ => .ok ()
  | .member _ _ value _ rest => do value.skip; rest.skip
  | .halted _ _ fault => .error fault
  | .badKey blame => .error blame.skipped
  | .noKey seen | .trailing seen => .error ⟨.keyDue, seen⟩
  | .unfinished stop => .error ⟨.endInObject, stop⟩
  | .stray seen => .error ⟨.objectBreakDue, seen⟩
  | .ended stop => .error ⟨.endInObject, stop⟩
end

/-! ### Encoding -/

mutual
/-- The place after the first byte of a value that belongs to no character, if there is one. -/
def Node.flaw : Node → Option Nat
  | .text spelling => spelling.flaw
  | .array _ items => items.flaw
  | .object _ members => members.flaw
  | _ => none

/-- The place after the first byte of some items that belongs to no character. -/
def Items.flaw : Items → Option Nat
  | .item _ value rest => value.flaw.or rest.flaw
  | _ => none

/-- The place after the first byte of some members that belongs to no character. -/
def Members.flaw : Members → Option Nat
  | .member key _ value _ rest => key.flaw.or (value.flaw.or rest.flaw)
  | _ => none
end

/-! ### Places -/

/-- The place after the last of some items and the closing bracket. -/
def Items.stop : Items → Nat
  | .close stop | .trailing stop | .stray stop | .ended stop => stop
  | .item _ _ rest => rest.stop

/-- The place after the last of some members and the closing brace. -/
def Members.stop : Members → Nat
  | .close stop | .trailing stop | .unfinished stop | .stray stop | .ended stop => stop
  | .noKey stop | .halted _ stop _ => stop
  | .badKey blame => blame.kept.offset
  | .member _ _ _ _ rest => rest.stop

/-! ### Keeping a value -/

/-- How deeply arrays and objects may still be nested: in a text up to a bound, in a value
without one. -/
inductive Depth
  | upTo (n : Nat)
  | unbounded

/-- The bound on the nesting of a text: arrays and objects may stand in each other up
to 127 deep. -/
def Depth.ofText : Depth := .upTo 128

/-- One level deeper, for an array or object that starts at a place. -/
def Depth.enter (depth : Depth) (start : Nat) : Except Fault Depth :=
  match depth with
  | .upTo n => if n ≤ 1 then .error ⟨.tooDeep, start + 1⟩ else .ok (.upTo (n - 1))
  | .unbounded => .ok .unbounded

/-- The end of an array that is kept: what was read before it, or the fault that no
item follows. -/
def Items.finish {α : Type} (read : α) : Items → Except Fault α
  | .close _ | .item _ _ _ => .ok read
  | .trailing seen => .error ⟨.trailingComma, seen⟩
  | .stray seen => .error ⟨.arrayBreakDue, seen⟩
  | .ended stop => .error ⟨.endInArray, stop⟩

/-- The next item and those after it, or none at the end of an array that is kept. -/
def Items.next : Items → Except Fault (Option (Node × Items))
  | .item _ value rest => .ok (some (value, rest))
  | last => last.finish none

/-- The end of an object that is kept: what was read before it, or the fault that no
member follows. -/
def Members.finish {α : Type} (read : α) : Members → Except Fault α
  | .close _ | .member _ _ _ _ _ => .ok read
  | .halted key _ fault => do
    let _ ← key.text
    .error fault
  | .badKey blame => .error blame.kept
  | .noKey seen => .error ⟨.keyDue, seen⟩
  | .trailing seen => .error ⟨.trailingComma, seen⟩
  | .unfinished stop => .error ⟨.endInValue, stop⟩
  | .stray seen => .error ⟨.objectBreakDue, seen⟩
  | .ended stop => .error ⟨.endInObject, stop⟩

mutual
/-- The value that a node spells, with all members of objects in the order of the text. -/
def Node.keep (depth : Depth) : Node → Except Fault Value
  | .null _ => .ok .null
  | .bool b _ => .ok (.bool b)
  | .number _ value _ => value.map Value.number
  | .text spelling => spelling.text.map Value.text
  | .array start items => do
    let depth ← depth.enter start
    return .array (← items.keep depth)
  | .object start members => do
    let depth ← depth.enter start
    return .object (← members.keep depth)
  | .broken _ blame | .brokenText blame => .error blame.kept
  | .missing stop => .error ⟨.endInValue, stop⟩

/-- The values that some items spell. -/
def Items.keep (depth : Depth) : Items → Except Fault (List Value)
  | .item _ value rest => do
    let value ← value.keep depth
    return value :: (← rest.keep depth)
  | last => last.finish []

/-- The members that some members spell. -/
def Members.keep (depth : Depth) : Members → Except Fault (List (String × Value))
  | .member key _ value _ rest => do
    let key ← key.text
    let value ← value.keep depth
    return (key, value) :: (← rest.keep depth)
  | last => last.finish []
end

/-! ### Nodes of the wrong kind -/

/-- What a node is, and where a message that it is something else is placed. The brackets of
arrays and objects are not read for that. -/
def found : Node → Except Fault (Found × Nat)
  | .array start _ => .ok (.sequence, start)
  | .object start _ => .ok (.map, start)
  | .broken _ blame | .brokenText blame => .error blame.kept
  | .missing stop => .error ⟨.endInValue, stop⟩
  | .null start => .ok (.null, start + 4)
  | .bool b start => .ok (.bool b, start + if b then 4 else 5)
  | .number _ value stop => value.map fun n => (.number n, stop)
  | .text spelling => spelling.text.map fun s => (.text s, spelling.stop)

/-- The fault of a node that is not of the kind due. -/
def mismatch {α : Type} (due : String) (node : Node) : Except Fault α := do
  let (found, place) ← found node
  throw ⟨.wrongType found due, place⟩

/-- The text that a node spells where one is due. -/
def Node.readText (due : String) : Node → Except Fault String
  | .text spelling => spelling.text
  | node => mismatch due node

/-! ### Values as trees -/

/-- A text as a spelling of itself. -/
def Spelling.ofText (s : String) : Spelling := ⟨.ok s, none, 0⟩

mutual
/-- A value as a tree without places. -/
def Value.node : Value → Node
  | .null => .null 0
  | .bool b => .bool b 0
  | .number n => .number 0 (.ok n) 0
  | .text s => .text (.ofText s)
  | .array items => .array 0 (itemNodes items)
  | .object members => .object 0 (memberNodes members)

/-- The items of an array as trees. -/
def itemNodes : List Value → Items
  | [] => .close 0
  | item :: items => .item 0 item.node (itemNodes items)

/-- The members of an object as trees. -/
def memberNodes : List (String × Value) → Members
  | [] => .close 0
  | (key, value) :: members => .member (.ofText key) 0 value.node 0 (memberNodes members)
end

end ApiSurface.Json
