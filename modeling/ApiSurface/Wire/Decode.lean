import ApiSurface.Json.Embedded
import ApiSurface.Wire.Shape

/-!
# Reading by shape

A value is read from the tree of its text, in the order of the text: the first thing that is
wrong on the way is the fault reported. Of an object read as a record, a repeated field is
noticed at its second key and a missing one at the closing brace.

Values that are already trees of their own, such as the payloads that an open record keeps,
are read in the same way, except that they have no bound on nesting, that their faults have
no place, and that surplus items of an array are reported by their number.

## Main definitions

* `Shape.decode`: reads a node by a shape.
* `Shape.ofBytes`: reads a text by a shape.
* `Shape.ofValue`: reads a value by a shape.
-/

namespace ApiSurface.Wire

open Json

/-! ### Numbers -/

/-- An unsigned number below a bound. -/
def decodeNatural (bound : Nat) (due : String) : Node → Except Fault Nat
  | .number _ value stop => do
    match ← value with
    | .integer i =>
      if 0 ≤ i && i < bound then return i.toNat
      else throw ⟨.wrongValue (.number (.integer i)) due, stop⟩
    | .real x => throw ⟨.wrongType (.number (.real x)) due, stop⟩
  | node => mismatch due node

/-! ### Arrays -/

/-- Reads all items. -/
def decodeItems {α : Type} (decode : Node → Except Fault α) : Items → Except Fault (List α)
  | .item _ value rest => do
    let value ← decode value
    return value :: (← decodeItems decode rest)
  | last => last.finish []

/-- The items from one on, counted. -/
def itemCount : Items → Nat
  | .item _ _ rest => itemCount rest + 1
  | _ => 0

/-- Checks that no item is left once all fields of a record have been read from an array. -/
def checkSurplus (depth : Depth) (items rest : Items) : Except Fault Unit :=
  match rest with
  | .close _ => .ok ()
  | .item seen _ _ =>
    match depth with
    | .upTo _ => .error ⟨.trailingCharacters, seen⟩
    | .unbounded => .error ⟨.wrongLength (itemCount items) "fewer elements in array", seen⟩
  | .trailing seen => .error ⟨.trailingComma, seen⟩
  | .stray seen => .error ⟨.trailingCharacters, seen⟩
  | .ended stop => .error ⟨.endInArray, stop⟩

/-! ### Objects -/

/-- Reads all members in order, and tells the place after the closing brace. Each key is first
offered to `repeated`, which may find fault with it, and then goes with its value to `add`. -/
def decodeMembers {σ : Type} (repeated : String → σ → Option Cause)
    (add : String → Node → σ → Except Fault σ) : Members → σ → Except Fault (σ × Nat)
  | .member key pause value _ rest, state => do
    let key ← key.text
    if let some cause := repeated key state then throw ⟨cause, pause⟩
    decodeMembers repeated add rest (← add key value state)
  | .halted key pause fault, state => do
    let key ← key.text
    if let some cause := repeated key state then throw ⟨cause, pause⟩
    throw fault
  | last, state => last.finish (state, last.stop)

/-! ### Names -/

/-- The case that a name stands for. -/
def decodeName {α : Type} (cases : List (String × α)) (spelling : Spelling) :
    Except Fault α := do
  let name ← spelling.text
  match cases.lookup name with
  | some a => return a
  | none => throw ⟨.unknownVariant name (cases.map Prod.fst), spelling.stop⟩

/-- Checks that an object with a name as its key has the value `null` and nothing else. -/
def checkNameAlone (value : Node) (after : Nat) (rest : Members) : Except Fault Unit := do
  match value with
  | .null _ => pure ()
  | value => mismatch "unit" value
  match rest with
  | .close _ => pure ()
  | .ended stop => throw ⟨.endInObject, stop⟩
  | _ => throw ⟨.valueDue, after⟩

/-- The case that an object with a name as its only key stands for. -/
def decodeNameObject {α : Type} (cases : List (String × α)) : Members → Except Fault α
  | .member key _ value after rest => do
    let a ← decodeName cases key
    checkNameAlone value after rest
    return a
  | .halted key _ fault => do
    let _ ← decodeName cases key
    throw fault
  | .badKey blame => .error blame.kept
  | .noKey seen => .error ⟨.keyDue, seen⟩
  | .ended stop => .error ⟨.endInObject, stop⟩
  | last => .error ⟨.valueDue, last.stop⟩

/-- The case that a node stands for. -/
def decodeChoice {α : Type} (depth : Depth) (cases : List (String × α)) : Node → Except Fault α
  | .text spelling => decodeName cases spelling
  | .object start members => do
    let _ ← depth.enter start
    decodeNameObject cases members
  | .missing stop => .error ⟨.endInValue, stop⟩
  | .brokenText blame => .error blame.kept
  | .null start | .bool _ start | .number start _ _ | .array start _ | .broken start _ =>
    .error ⟨.valueDue, start + 1⟩

/-! ### Fields -/

/-- What has been read of the fields of a record. -/
def Fields.Slots {β : Type} : Fields β → Type
  | .done => Unit
  | @Fields.required α _ _ _ rest => Option α × rest.Slots
  | @Fields.defaulted α _ _ _ _ rest => Option α × rest.Slots
  | @Fields.optional α _ _ _ rest => Option (Option α) × rest.Slots
  | .mark _ rest => Option Bool × rest.Slots

/-- Nothing has been read. -/
def Fields.unread {β : Type} : (fields : Fields β) → fields.Slots
  | .done => ()
  | .required _ _ rest => (none, rest.unread)
  | .defaulted _ _ _ rest => (none, rest.unread)
  | .optional _ _ rest => (none, rest.unread)
  | .mark _ rest => (none, rest.unread)

/-- The fault of a key whose field has been read already. -/
def Fields.repeated {β : Type} : (fields : Fields β) → String → fields.Slots → Option Cause
  | .done, _, _ => none
  | .required key _ rest, name, slots =>
    again key name slots.1.isSome (rest.repeated name slots.2)
  | .defaulted key _ _ rest, name, slots =>
    again key name slots.1.isSome (rest.repeated name slots.2)
  | .optional key _ rest, name, slots =>
    again key name slots.1.isSome (rest.repeated name slots.2)
  | .mark key rest, name, slots => again key name slots.1.isSome (rest.repeated name slots.2)
where
  /-- The fault of a name that is a key already read; any other name is
  looked up further on. -/
  again (key name : String) (read : Bool) (later : Option Cause) : Option Cause :=
    if name = key then if read then some (.duplicateField key) else none else later

/-- The values of the fields once the object has ended before the given place. -/
def Fields.complete {β : Type} (stop : Nat) :
    (fields : Fields β) → fields.Slots → Except Fault β
  | .done, _ => .ok ()
  | .required key _ rest, slots => do
    match slots.1 with
    | some a => return (a, ← rest.complete stop slots.2)
    | none => throw ⟨.missingField key, stop⟩
  | .defaulted _ _ default rest, slots => do
    return (slots.1.getD default, ← rest.complete stop slots.2)
  | .optional _ _ rest, slots => do
    return (slots.1.getD none, ← rest.complete stop slots.2)
  | .mark _ rest, slots => do
    return (slots.1.getD false, ← rest.complete stop slots.2)

/-- How a message names the fields of a record that is read from an array. -/
def fieldCount (name : String) (count : Nat) : String :=
  "struct " ++ name ++ " with " ++ toString count ++ " element" ++
    if count = 1 then "" else "s"

/-- What an open record keeps of the members that are none of its fields. -/
def settleExtras (extras : List (String × Value)) : Except Cause (Table String Value) := do
  let settled ← extras.mapM fun (key, value) => do return (key, ← value.settle)
  return .ofList settled

/-! ### Shapes -/

/-- A flag. -/
def decodeFlag : Node → Except Fault Bool
  | .bool b _ => .ok b
  | node => mismatch "a boolean" node

mutual
/-- Reads a node by a shape. -/
def Shape.decode {α : Type} (depth : Depth) : Shape α → Node → Except Fault α
  | .text, node => node.readText "a string"
  | .word32, node => (decodeNatural UInt32.size "u32" node).map Nat.toUInt32
  | .word64, node => (decodeNatural UInt64.size "usize" node).map Nat.toUInt64
  | .flag, node => decodeFlag node
  | .raw, node => do
    node.skip
    match node.flaw with
    | none => return node
    | some place => throw ⟨.badEncoding, place⟩
  | .choice cases _ _, node => decodeChoice depth cases node
  | .list item, node =>
    match node with
    | .array start items => do
      let depth ← depth.enter start
      decodeItems (item.decode depth) items
    | node => mismatch "a sequence" node
  | .table item, node =>
    match node with
    | .object start members => do
      let depth ← depth.enter start
      let add (key : String) (value : Node) (read : Table String _) := do
        return read.insert key (← item.decode depth value)
      let (read, _) ← decodeMembers (fun _ _ => none) add members .empty
      return read
    | node => mismatch "a map" node
  | .record name fields make _ _, node =>
    match node with
    | .array start items => do
      let depth ← depth.enter start
      let (values, rest) ← fields.decodeInOrder depth (fieldCount name fields.count) 0 items
      checkSurplus depth items rest
      return make values
    | .object start members => do
      let depth ← depth.enter start
      let add (key : String) (value : Node) (slots : fields.Slots) :=
        (fields.store depth key value slots).getD do
          value.skip
          return slots
      let (slots, stop) ← decodeMembers fields.repeated add members fields.unread
      return make (← fields.complete stop slots)
    | node => mismatch ("struct " ++ name) node
  | .openRecord name fields make _ _ _, node =>
    match node with
    | .object start members => do
      let depth ← depth.enter start
      let add (key : String) (value : Node) (read : fields.Slots × List (String × Value)) :=
        match fields.store depth key value read.1 with
        | some stored => stored.map fun slots => (slots, read.2)
        | none => do return (read.1, (key, ← value.keep depth) :: read.2)
      let ((slots, extras), stop) ← decodeMembers
        (fun key read => fields.repeated key read.1) add members (fields.unread, [])
      let values ← fields.complete stop slots
      return make values (← (settleExtras extras.reverse).mapError fun cause => ⟨cause, stop⟩)
    | node => mismatch ("struct " ++ name) node

/-- Reads the value of a member into its field; `none` if the key is that of no field. -/
def Fields.store {β : Type} (depth : Depth) :
    (fields : Fields β) → String → Node → fields.Slots → Option (Except Fault fields.Slots)
  | .done, _, _, _ => none
  | .required key shape rest, name, value, slots =>
    if name = key then some ((shape.decode depth value).map fun a => (some a, slots.2))
    else (rest.store depth name value slots.2).map (·.map fun later => (slots.1, later))
  | .defaulted key shape _ rest, name, value, slots =>
    if name = key then some ((shape.decode depth value).map fun a => (some a, slots.2))
    else (rest.store depth name value slots.2).map (·.map fun later => (slots.1, later))
  | .optional key shape rest, name, value, slots =>
    if name = key then
      some <| match value with
        | .null _ => .ok (some none, slots.2)
        | value => (shape.decode depth value).map fun a => (some (some a), slots.2)
    else (rest.store depth name value slots.2).map (·.map fun later => (slots.1, later))
  | .mark key rest, name, value, slots =>
    if name = key then some ((decodeFlag value).map fun b => (some b, slots.2))
    else (rest.store depth name value slots.2).map (·.map fun later => (slots.1, later))

/-- Reads fields from the items of an array, in order: their values, and the items left. There
were `index` items before. A field that must be there is missed if the array ends before it. -/
def Fields.decodeInOrder {β : Type} (depth : Depth) (due : String) (index : Nat) :
    Fields β → Items → Except Fault (β × Items)
  | .done, items => .ok ((), items)
  | .required _ shape rest, items => do
    let some (value, items) ← items.next | throw ⟨.wrongLength index due, items.stop⟩
    let a ← shape.decode depth value
    let (values, items) ← rest.decodeInOrder depth due (index + 1) items
    return ((a, values), items)
  | .defaulted _ shape default rest, items => do
    let (a, items) ← match ← items.next with
      | some (value, items) => (shape.decode depth value).map fun a => (a, items)
      | none => pure (default, items)
    let (values, items) ← rest.decodeInOrder depth due (index + 1) items
    return ((a, values), items)
  | .optional _ shape rest, items => do
    let (a, items) ← match ← items.next with
      | some (.null _, items) => pure (none, items)
      | some (value, items) => (shape.decode depth value).map fun a => (some a, items)
      | none => pure (none, items)
    let (values, items) ← rest.decodeInOrder depth due (index + 1) items
    return ((a, values), items)
  | .mark _ rest, items => do
    let (a, items) ← match ← items.next with
      | some (value, items) => (decodeFlag value).map fun a => (a, items)
      | none => pure (false, items)
    let (values, items) ← rest.decodeInOrder depth due (index + 1) items
    return ((a, values), items)
end

/-- Reads a text by a shape. -/
def Shape.ofBytes {α : Type} (shape : Shape α) (text : List UInt8) : Except Diagnostic α :=
  ((Document.ofBytes text).use (shape.decode .ofText)).mapError (Fault.locate text)

/-- Reads a value by a shape. -/
def Shape.ofValue {α : Type} (shape : Shape α) (value : Value) : Except Cause α :=
  (shape.decode .unbounded value.node).mapError Fault.cause

end ApiSurface.Wire
