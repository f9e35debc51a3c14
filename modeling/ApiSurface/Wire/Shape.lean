import ApiSurface.Json.Node

/-!
# Shapes

A shape says how the values of a type are written in JSON. Reading and writing are both
defined from the shape (`Shape.decode`, `Shape.encode`), so a type needs nothing but its
shape to be read and written, and what holds for every shape holds for every type.

A record is written as an object with its fields as members. A field says what a missing
member means, and when the member is left out. Some records are open: members that are not
fields are kept, each under its key.

## Main definitions

* `Shape`: how the values of a type are written.
* `Fields`: the fields of a record, in their order.
-/

namespace ApiSurface.Wire

open Json

mutual
/-- How the values of a type are written. -/
inductive Shape : Type → Type 1
  /-- A string. -/
  | text : Shape String
  /-- A number of 32 bits. -/
  | word32 : Shape UInt32
  /-- A number of 64 bits. -/
  | word64 : Shape UInt64
  /-- `true` or `false`. -/
  | flag : Shape Bool
  /-- A value that is checked for its form only, and left as it stands. -/
  | raw : Shape Node
  /-- One of some names, alone or as the only key of an object with the value `null`. -/
  | choice {α : Type} (cases : List (String × α)) (name : α → String)
      (named : ∀ a, cases.lookup (name a) = some a) : Shape α
  /-- An array. -/
  | list {α : Type} (item : Shape α) : Shape (List α)
  /-- An object with arbitrary keys, of which the last one counts if it is repeated. -/
  | table {α : Type} (item : Shape α) : Shape (Table String α)
  /-- An object with the fields as members, or an array of the fields in their order.
  Members that are not fields are passed over. -/
  | record {α β : Type} (name : String) (fields : Fields β) (make : β → α) (parts : α → β)
      (made : ∀ a, make (parts a) = a) : Shape α
  /-- An object with the fields as members. Members that are not fields are kept. -/
  | openRecord {α β : Type} (name : String) (fields : Fields β)
      (make : β → Table String Value → α) (parts : α → β) (extras : α → Table String Value)
      (made : ∀ a, make (parts a) (extras a) = a) : Shape α

/-- The fields of a record, as a shape of the tuple of their values. -/
inductive Fields : Type → Type 1
  | done : Fields Unit
  /-- A field that must be there. -/
  | required {α β : Type} (key : String) (shape : Shape α) (rest : Fields β) : Fields (α × β)
  /-- A field with a value to assume if it is missing. It is always written. -/
  | defaulted {α β : Type} (key : String) (shape : Shape α) (default : α) (rest : Fields β) :
      Fields (α × β)
  /-- A field that may be missing or `null`. It is left out if there is no value. -/
  | optional {α β : Type} (key : String) (shape : Shape α) (rest : Fields β) :
      Fields (Option α × β)
  /-- A flag that is off if it is missing. It is left out if it is off. -/
  | mark {β : Type} (key : String) (rest : Fields β) : Fields (Bool × β)
end

/-- How many fields there are. -/
def Fields.count {β : Type} : Fields β → Nat
  | .done => 0
  | .required _ _ rest => rest.count + 1
  | .defaulted _ _ _ rest => rest.count + 1
  | .optional _ _ rest => rest.count + 1
  | .mark _ rest => rest.count + 1

end ApiSurface.Wire
