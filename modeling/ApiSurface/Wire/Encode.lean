import ApiSurface.Wire.Shape

/-!
# Writing by shape

A value is written as a JSON value whose members stand in the order of the fields, followed
by the members that an open record keeps, in key order.

## Main definitions

* `Shape.encode`: the JSON value for a value.
* `Shape.render`: the compact text for a value.
* `Shape.toValue`: the JSON value for a value, with all members in key order.
-/

namespace ApiSurface.Wire

open Json

/-- A member for a value that is there. -/
def optionalMember {α : Type} (key : String) (encode : α → Value) :
    Option α → List (String × Value)
  | none => []
  | some a => [(key, encode a)]

mutual
/-- The JSON value for a value. A value that has been left as it stands is written as the
value it spells, and as `null` if it spells none. -/
def Shape.encode {α : Type} : Shape α → α → Value
  | .text, s => .text s
  | .word32, w => .number (.integer w.toNat)
  | .word64, w => .number (.integer w.toNat)
  | .flag, b => .bool b
  | .raw, node => (node.keep .unbounded).toOption.getD .null
  | .choice _ name _, a => .text (name a)
  | .list item, as => .array (as.map item.encode)
  | .table item, t => .object (t.entries.map fun entry => (entry.1, item.encode entry.2))
  | .record _ fields _ parts _, a => .object (fields.members (parts a))
  | .openRecord _ fields _ parts extras _, a =>
    .object (fields.members (parts a) ++ (extras a).entries)

/-- The members for the values of some fields. -/
def Fields.members {β : Type} : Fields β → β → List (String × Value)
  | .done, _ => []
  | .required key shape rest, values => (key, shape.encode values.1) :: rest.members values.2
  | .defaulted key shape _ rest, values =>
    (key, shape.encode values.1) :: rest.members values.2
  | .optional key shape rest, values =>
    optionalMember key shape.encode values.1 ++ rest.members values.2
  | .mark key rest, values =>
    optionalMember key Value.bool (if values.1 then some true else none) ++
      rest.members values.2
end

/-- The compact text for a value. -/
def Shape.render {α : Type} (shape : Shape α) (a : α) : String := (shape.encode a).render

/-- The JSON value for a value, with all members in key order. -/
def Shape.toValue {α : Type} (shape : Shape α) (a : α) : Value := (shape.encode a).sorted

end ApiSurface.Wire
