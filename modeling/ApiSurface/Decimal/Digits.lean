/-!
# Numbers that digits denote

A count is a number of 64 bits. It is read from decimal digits, before which a plus
sign may stand.

A numeral with a fraction or an exponent is read in floating point: the digits that fit a
64-bit word become a floating-point number, which is then multiplied or divided by a power
of ten. The result is not always the number nearest to the numeral.

## Main definitions

* `countOf`: the count that digits denote; `CountFault`: why a text is no count.
* `Decimal.absorb`: the digits of a numeral that fit a word.
* `Decimal.scale`: a whole number times a power of ten, in floating point.
-/

namespace ApiSurface

/-! ### Counts -/

/-- Why a text is no count. -/
inductive CountFault
  | empty
  | invalidDigit
  | tooLarge
  deriving DecidableEq

/-- The wording for a fault. -/
def CountFault.message : CountFault → String
  | .empty => "cannot parse integer from empty string"
  | .invalidDigit => "invalid digit found in string"
  | .tooLarge => "number too large to fit in target type"

/-- The greatest count and one. -/
def countBound : Nat := UInt64.size

/-- The number that further digits make of a number. -/
def countFrom (n : Nat) : List Char → Except CountFault Nat
  | [] => .ok n
  | c :: rest =>
    if c.isDigit then
      let n := n * 10 + (c.toNat - '0'.toNat)
      if n < countBound then countFrom n rest else .error .tooLarge
    else .error .invalidDigit

/-- The number that digits denote, which may follow a plus sign. -/
def countOf : List Char → Except CountFault Nat
  | [] => .error .empty
  | ['+'] => .error .invalidDigit
  | '+' :: digits => countFrom 0 digits
  | digits => countFrom 0 digits

namespace Decimal

/-! ### Numerals in floating point -/

/-- The greatest number that a 64-bit word holds. -/
def maxWord : Nat := 18446744073709551615

/-- The greatest power of ten that is scaled by in one step. -/
def maxPower : Nat := 308

/-- A power of ten as a floating-point number. -/
def powerOfTen (e : Nat) : Float := Float.ofScientific 1 false e

/-- Appends digits to a number as long as it fits a word: the number, and how many
digits it took. -/
def absorb (n : Nat) : List Nat → Nat × Nat
  | [] => (n, 0)
  | d :: rest =>
    if n * 10 + d ≤ maxWord then
      let (m, count) := absorb (n * 10 + d) rest
      (m, count + 1)
    else (n, 0)

/-- Divides by a power of ten, in steps; nothing is left to divide once the number is zero. -/
def scaleDown (x : Float) (e : Nat) : Float :=
  if e ≤ maxPower then x / powerOfTen e
  else if x == 0 then x
  else scaleDown (x / powerOfTen maxPower) (e - maxPower)
termination_by e
decreasing_by simp [maxPower] at *; omega

/-- Multiplies by a power of ten; `none` if the result is too large. -/
def scaleUp (x : Float) (e : Nat) : Option Float :=
  if e ≤ maxPower then
    let y := x * powerOfTen e
    if y.isInf then none else some y
  else if x == 0 then some x
  else none

/-- A whole number of at most 64 bits times a power of ten; `none` if the
result is too large. -/
def scale (n : Nat) (e : Int) : Option Float :=
  let x := n.toUInt64.toFloat
  if 0 ≤ e then scaleUp x e.toNat else some (scaleDown x (-e).toNat)

end Decimal

end ApiSurface
