import ApiSurface.Json.Embedded

/-!
# The parts of a value

Much of what matters about a value is said of it and of all values inside it alike: that its
numbers are integers, that its keys are in order, that no object of it has some key.

## Main definitions

* `Value.parts`: a value and all values inside it.
* `Value.Everywhere`: a property of all parts of a value.
* `Value.IsExact`, `Value.IsOfWords`, `Value.IsOrdered`, `Value.Lacks`: the properties of a
  part that decide whether a value is read back as it was written.
-/

namespace ApiSurface.Json

mutual
/-- A value and all values inside it. -/
def Value.parts : Value → List Value
  | .array items => .array items :: itemParts items
  | .object members => .object members :: memberParts members
  | v => [v]

/-- The values inside an array. -/
def itemParts : List Value → List Value
  | [] => []
  | item :: items => item.parts ++ itemParts items

/-- The values inside an object. -/
def memberParts : List (String × Value) → List Value
  | [] => []
  | (_, value) :: members => value.parts ++ memberParts members
end

/-- The least and the greatest integer that a number is read as. -/
def IsWord (i : Int) : Prop := -9223372036854775808 ≤ i ∧ i ≤ Decimal.maxWord

namespace Value

/-- Whether a property holds of a value and of all values inside it. -/
def Everywhere (P : Value → Prop) (v : Value) : Prop := ∀ part ∈ v.parts, P part

instance (P : Value → Prop) [DecidablePred P] (v : Value) : Decidable (v.Everywhere P) :=
  inferInstanceAs (Decidable (∀ part ∈ v.parts, P part))

/-! ### Properties of a part -/

/-- Whether a value is no floating-point number. -/
def IsExact : Value → Prop
  | .number (.real _) => False
  | _ => True

/-- Whether a value, if it is an integer, has at most 64 bits. -/
def IsOfWords : Value → Prop
  | .number (.integer i) => IsWord i
  | _ => True

/-- Whether the members of an object are in key order, each key once. -/
def IsOrdered : Value → Prop
  | .object members => KeysIncrease members
  | _ => True

/-- Whether an object has no member with a key. -/
def Lacks (key : String) : Value → Prop
  | .object members => ∀ member ∈ members, member.1 ≠ key
  | _ => True

instance : DecidablePred IsExact := fun v => by
  unfold IsExact
  split <;> infer_instance

instance (key : String) : DecidablePred (Lacks key) := fun v => by
  unfold Lacks
  split <;> infer_instance

/-! ### Arrays and objects -/

variable {P : Value → Prop}

/-- A value is one of its parts. -/
theorem Everywhere.self {v : Value} (h : v.Everywhere P) : P v := by
  cases v <;> exact h _ (by simp [parts])

/-- A property holds everywhere in an array if it holds of the array and everywhere
in its items. -/
theorem everywhere_array_iff {items : List Value} :
    (array items).Everywhere P ↔ P (.array items) ∧ ∀ item ∈ items, item.Everywhere P := by
  have hitems : (∀ part ∈ itemParts items, P part) ↔ ∀ item ∈ items, item.Everywhere P := by
    induction items with
    | nil => simp [itemParts]
    | cons item items ih =>
      rw [itemParts, List.forall_mem_append, List.forall_mem_cons, ih]; rfl
  rw [Everywhere, parts, List.forall_mem_cons, hitems]

/-- A property holds everywhere in an object if it holds of the object and everywhere
in its values. -/
theorem everywhere_object_iff {members : List (String × Value)} :
    (object members).Everywhere P ↔
      P (.object members) ∧ ∀ member ∈ members, member.2.Everywhere P := by
  have hmembers : (∀ part ∈ memberParts members, P part) ↔
      ∀ member ∈ members, member.2.Everywhere P := by
    induction members with
    | nil => simp [memberParts]
    | cons member members ih =>
      rw [memberParts, List.forall_mem_append, List.forall_mem_cons, ih]; rfl
  rw [Everywhere, parts, List.forall_mem_cons, hmembers]

/-- A value that is neither an array nor an object is its only part. -/
theorem everywhere_null_iff : null.Everywhere P ↔ P .null := List.forall_mem_singleton

theorem everywhere_bool_iff {b : Bool} : (bool b).Everywhere P ↔ P (.bool b) :=
  List.forall_mem_singleton

theorem everywhere_number_iff {n : Number} : (number n).Everywhere P ↔ P (.number n) :=
  List.forall_mem_singleton

theorem everywhere_text_iff {s : String} : (text s).Everywhere P ↔ P (.text s) :=
  List.forall_mem_singleton

end Value

end ApiSurface.Json
