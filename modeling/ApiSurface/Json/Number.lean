import ApiSurface.Decimal.Digits
import ApiSurface.Decimal.Shortest

/-!
# Numbers of a JSON text

A numeral without fraction and exponent is an integer if it fits 64 bits, signed or
unsigned; every other numeral is a floating-point number.

## Main definitions

* `Number`: an integer or a floating-point number.
* `Numeral`: the parts of a numeral; `Numeral.value`: the number it denotes.
* `Number.render`: the numeral that is written for a number.
-/

namespace ApiSurface.Json

/-- A number. Integers lie between the least signed and the greatest unsigned 64-bit word. -/
inductive Number
  | integer (i : Int)
  | real (x : Float)
  deriving DecidableEq

/-! ### Writing -/

/-- Floating-point numbers are written positionally from a hundred-thousandth up to below
ten to the sixteenth, and with a power of ten outside these bounds. -/
def realLayout : Decimal.Layout := ⟨-4, 16⟩

/-- The numeral for a floating-point number: its shortest decimal, with a sign if it
is negative. -/
def renderReal (x : Float) : String :=
  let bits := x.toBits
  let sign := if bits >>> 63 = 1 then "-" else ""
  let magnitude := Decimal.Binary.ofBits bits
  if magnitude.m = 0 then sign ++ "0.0" else sign ++ realLayout.render magnitude.shortest

/-- The numeral for a number. -/
def Number.render : Number → String
  | .integer i => toString i
  | .real x => renderReal x

/-! ### Reading -/

/-- The parts of a numeral, digits as numbers below ten. -/
structure Numeral where
  /-- Whether there is a minus sign. -/
  negative : Bool
  /-- The digits before the point. -/
  whole : List Nat
  /-- The digits after the point, if there is a point. -/
  fraction : Option (List Nat)
  /-- Whether the exponent is negative, and its digits, if there is an exponent. -/
  exponent : Option (Bool × List Nat)

/-- The greatest exponent that is read to its end. -/
def maxExponent : Nat := 2147483647

/-- The number that the digits of an exponent denote, or, if it grows too large, how many
digits were left then. -/
def exponentValue (n : Nat) : List Nat → Except Nat Nat
  | [] => .ok n
  | d :: rest =>
    if n * 10 + d ≤ maxExponent then exponentValue (n * 10 + d) rest else .error rest.length

/-- A floating-point number with a sign. -/
def signed (negative : Bool) (x : Float) : Number := .real (if negative then -x else x)

/-- An integer of at most 64 bits; negative zero and negative numbers below the least signed
word are floating-point numbers. -/
def integral (negative : Bool) (n : Nat) : Number :=
  if negative then
    if n = 0 || 9223372036854775808 < n then .real (-n.toUInt64.toFloat) else .integer (-n)
  else .integer n

/-- The number that a numeral denotes. A number that is too large is an error, which tells
how many bytes of the numeral were left when that was found out. -/
def Numeral.value (l : Numeral) : Except Nat Number :=
  let (n, taken) := Decimal.absorb 0 l.whole
  let dropped := l.whole.length - taken
  match l.fraction, l.exponent with
  | none, none =>
    if dropped = 0 then .ok (integral l.negative n)
    else scaled n dropped
  | fraction, exponent =>
    let (n, decimals) := Decimal.absorb n (fraction.getD [])
    let shift : Int := (dropped : Int) - decimals
    match exponent with
    | none => scaled n shift
    | some (negative, digits) =>
      match exponentValue 0 digits with
      | .ok e => scaled n (if negative then shift - e else shift + e)
      | .error left =>
        if n != 0 && !negative then .error left else .ok (signed l.negative 0)
where
  /-- A number with a power of ten, or the error that it is too large. -/
  scaled (n : Nat) (e : Int) : Except Nat Number :=
    match Decimal.scale n e with
    | some x => .ok (signed l.negative x)
    | none => .error 0

end ApiSurface.Json
