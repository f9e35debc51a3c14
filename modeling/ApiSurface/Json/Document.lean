import ApiSurface.Json.Node

/-!
# Documents

A document is the tree read from a text and whatever follows it. The readers below take a
bound on how many of them may be under way at once; `Document.ofBytes` gives one that no
text reaches, since of any two readers in a row one has passed over a byte.

## Main definitions

* `readValue`, `readItems`, `readMembers`: the tree at a place, and the place after it.
* `Document.ofBytes`: the document of a text.
* `Document.use`: the answer that the user of a tree gives, if nothing follows the tree.
-/

namespace ApiSurface.Json

/-- A node that begins as a word does, given the rest of the word. -/
def wordNode (letters : List UInt8) (node : Nat → Node) (c : Cursor) : Node × Option Cursor :=
  match c.next.word letters with
  | .ok after => (node c.offset, some after)
  | .error fault => (.broken c.offset (.both fault), none)

/-- A node that begins with a digit or a minus sign. -/
def numberNode (c : Cursor) : Node × Option Cursor :=
  match c.numeral with
  | .ok (numeral, after) =>
    (.number c.offset (numberAt numeral after.offset) after.offset, some after)
  | .error blame => (.broken c.offset blame, none)

/-- A node that begins with a quote. -/
def textNode (c : Cursor) : Node × Option Cursor :=
  match c.next.string with
  | .ok (spelling, after) => (.text spelling, some after)
  | .error blame => (.brokenText blame, none)

/-- The items after an opening bracket, where `more` reads items from the first one on. -/
def itemsAfterBracket (more : Cursor → Items × Option Cursor) (c : Cursor) :
    Items × Option Cursor :=
  match c.rest with
  | [] => (.ended c.offset, none)
  | 93 :: _ => (.close c.next.offset, some c.next)
  | _ => more c

/-- The items after an item, where `more` reads items from the next one on. -/
def itemsAfterItem (more : Cursor → Items × Option Cursor) (c : Cursor) :
    Items × Option Cursor :=
  match c.rest with
  | [] => (.ended c.offset, none)
  | 93 :: _ => (.close c.next.offset, some c.next)
  | 44 :: _ =>
    let c := c.next.skipBlanks
    match c.rest with
    | 93 :: _ => (.trailing c.seen, none)
    | _ => more c
  | _ => (.stray c.seen, none)

/-- The members after an opening brace, where `more` reads members from the first one on. -/
def membersAfterBrace (more : Cursor → Members × Option Cursor) (c : Cursor) :
    Members × Option Cursor :=
  match c.rest with
  | [] => (.ended c.offset, none)
  | 125 :: _ => (.close c.next.offset, some c.next)
  | _ => more c

/-- The members after a member, where `more` reads members from the next one on. -/
def membersAfterMember (more : Cursor → Members × Option Cursor) (c : Cursor) :
    Members × Option Cursor :=
  match c.rest with
  | [] => (.ended c.offset, none)
  | 125 :: _ => (.close c.next.offset, some c.next)
  | 44 :: _ =>
    let c := c.next.skipBlanks
    match c.rest with
    | [] => (.unfinished c.offset, none)
    | 125 :: _ => (.trailing c.seen, none)
    | _ => more c
  | _ => (.stray c.seen, none)

/-- Where a walk over members stops that breaks off after a key: before what follows, or
after it if that is the closing brace. -/
def Cursor.pause (c : Cursor) : Nat :=
  match c.rest with
  | 125 :: _ => c.offset + 1
  | _ => c.offset

mutual
/-- The node at a place that is not blank. -/
def readValue : Nat → Cursor → Node × Option Cursor
  | 0, c => (.missing c.offset, none)
  | fuel + 1, c =>
    match c.rest with
    | [] => (.missing c.offset, none)
    | 110 :: _ => wordNode [117, 108, 108] .null c
    | 116 :: _ => wordNode [114, 117, 101] (.bool true) c
    | 102 :: _ => wordNode [97, 108, 115, 101] (.bool false) c
    | 34 :: _ => textNode c
    | 91 :: _ =>
      let (items, after) := itemsAfterBracket (readItems fuel) c.next.skipBlanks
      (.array c.offset items, after)
    | 123 :: _ =>
      let (members, after) := membersAfterBrace (readMembers fuel) c.next.skipBlanks
      (.object c.offset members, after)
    | b :: _ =>
      if b = 45 || isDigit b then numberNode c
      else (.broken c.offset (.both (c.blame .valueDue)), none)

/-- The items from the one at a place on. -/
def readItems : Nat → Cursor → Items × Option Cursor
  | 0, c => (.ended c.offset, none)
  | fuel + 1, c =>
    match readValue fuel c with
    | (value, none) => (.item c.seen value (.ended c.offset), none)
    | (value, some after) =>
      let (rest, stop) := itemsAfterItem (readItems fuel) after.skipBlanks
      (.item c.seen value rest, stop)

/-- The members from the one at a place on. -/
def readMembers : Nat → Cursor → Members × Option Cursor
  | 0, c => (.ended c.offset, none)
  | fuel + 1, c =>
    match c.rest with
    | 34 :: _ =>
      match c.next.string with
      | .error blame => (.badKey blame, none)
      | .ok (key, afterKey) =>
        let c := afterKey.skipBlanks
        match c.rest with
        | 58 :: _ =>
          match readValue fuel c.next.skipBlanks with
          | (value, none) => (.member key c.pause value c.offset (.ended c.offset), none)
          | (value, some after) =>
            let after := after.skipBlanks
            let (rest, stop) := membersAfterMember (readMembers fuel) after
            (.member key c.pause value after.offset rest, stop)
        | [] => (.halted key c.pause (c.blame .endInObject), none)
        | _ => (.halted key c.pause (c.blame .colonDue), none)
    | _ => (.noKey c.seen, none)
end

/-- The tree read from a text, and what follows it. -/
structure Document where
  /-- The value that the text begins with. -/
  root : Node
  /-- The place after the first byte that follows the value and is not blank, if
  there is one. -/
  surplus : Option Nat

/-- The document of a text. -/
def Document.ofBytes (text : List UInt8) : Document :=
  let (root, after) := readValue (2 * text.length + 2) (skipBlanks text 0)
  let surplus := after.bind fun c =>
    let c := c.skipBlanks
    if c.rest.isEmpty then none else some c.seen
  ⟨root, surplus⟩

/-- What the user of a tree makes of a document, provided that nothing follows the tree. -/
def Document.use {α : Type} (document : Document) (make : Node → Except Fault α) :
    Except Fault α := do
  let result ← make document.root
  match document.surplus with
  | some seen => throw ⟨.trailingCharacters, seen⟩
  | none => return result

end ApiSurface.Json
