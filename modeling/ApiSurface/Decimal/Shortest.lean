/-!
# The shortest decimal of a binary number

A binary floating-point number stands for every real that rounds to it: those between the
halfway points to its two neighbours, the halfway points themselves included when its
significand is even. Its shortest decimal is the one with the fewest digits in that
interval, and of those the nearest to the number; of two equally near ones, the one with an
even last digit.

The search is exact: all comparisons are between natural numbers.

## Main definitions

* `Binary`: a positive binary number `m * 2 ^ q`.
* `Scientific`: a decimal number `digits * 10 ^ exponent`.
* `Binary.shortest`: the shortest decimal of a binary number.
* `Layout.render`: a decimal in positional or in scientific form.
-/

namespace ApiSurface.Decimal

/-! ### Binary and decimal numbers -/

/-- The number `m * 2 ^ q`. -/
structure Binary where
  /-- The significand. -/
  m : Nat
  /-- The exponent of two. -/
  q : Int
  /-- Whether the gap to the next number below is half the gap to the next one above. -/
  narrowBelow : Bool

/-- The number `digits * 10 ^ exponent`. -/
structure Scientific where
  /-- The digits, read as one number. -/
  digits : Nat
  /-- The exponent of ten. -/
  exponent : Int

/-- The magnitude that the 64 bits of a finite floating-point number stand for. -/
def Binary.ofBits (bits : UInt64) : Binary :=
  let fraction := (bits &&& 0xFFFFFFFFFFFFF).toNat
  let power := ((bits >>> 52) &&& 0x7FF).toNat
  if power = 0 then ⟨fraction, -1074, false⟩
  else ⟨fraction + 0x10000000000000, (power : Int) - 1075, fraction = 0 && power > 1⟩

/-- Compares `d * 10 ^ e` with `n * 2 ^ p`, by clearing the negative powers. -/
def compareWithBinary (d : Nat) (e : Int) (n : Nat) (p : Int) : Ordering :=
  compare ((d * Nat.pow 10 e.toNat) <<< (-p).toNat) ((n * Nat.pow 10 (-e).toNat) <<< p.toNat)

/-! ### The interval of a binary number -/

/-- Whether a decimal rounds to a binary number. The ends are counted in quarters of the
last place, so that both are whole. -/
def Binary.stands (b : Binary) (d : Nat) (e : Int) : Bool :=
  let low := compareWithBinary d e (4 * b.m - if b.narrowBelow then 1 else 2) (b.q - 2)
  let high := compareWithBinary d e (4 * b.m + 2) (b.q - 2)
  if b.m % 2 = 0 then low != .lt && high != .gt else low == .gt && high == .lt

/-- The least power of ten above a positive binary number. The binary logarithm gives it up
to two steps. -/
def Binary.magnitude (b : Binary) : Int :=
  let guess := ((b.m.log2 : Int) + b.q) * 30103 / 100000 - 1
  let above := (List.range 5).find? fun step : Nat =>
    compareWithBinary 1 (guess + step) b.m b.q == .gt
  guess + above.getD 0

/-- The whole number of units `10 ^ e` in a binary number. -/
def Binary.unitsBelow (b : Binary) (e : Int) : Nat :=
  ((b.m * Nat.pow 10 (-e).toNat) <<< b.q.toNat) / (Nat.pow 10 e.toNat <<< (-b.q).toNat)

/-! ### The search -/

/-- Of the two neighbours of a binary number on the grid of units `10 ^ e`, the one that
stands for it, and the nearer one if both do. -/
def Binary.onGrid (b : Binary) (e : Int) : Option Scientific :=
  let below := b.unitsBelow e
  match b.stands below e, b.stands (below + 1) e with
  | true, true =>
    match compareWithBinary (2 * below + 1) e (2 * b.m) b.q with
    | .gt => some ⟨below, e⟩
    | .lt => some ⟨below + 1, e⟩
    | .eq => some (if below % 2 = 0 then ⟨below, e⟩ else ⟨below + 1, e⟩)
  | true, false => some ⟨below, e⟩
  | false, true => some ⟨below + 1, e⟩
  | false, false => none

/-- Moves trailing zeros of the digits into the exponent, at most `fuel` of them. -/
def Scientific.stripped : Nat → Scientific → Scientific
  | 0, d => d
  | fuel + 1, d =>
    if d.digits % 10 = 0 && d.digits != 0 then
      stripped fuel ⟨d.digits / 10, d.exponent + 1⟩
    else d

/-- The exact decimal of a binary number. -/
def Binary.exact (b : Binary) : Scientific :=
  if 0 ≤ b.q then ⟨b.m <<< b.q.toNat, 0⟩ else ⟨b.m * Nat.pow 5 (-b.q).toNat, b.q⟩

/-- The shortest decimal of a positive binary number. Seventeen digits always suffice. -/
def Binary.shortest (b : Binary) : Scientific :=
  let top := b.magnitude
  match (List.range 17).findSome? fun n : Nat => b.onGrid (top - (n + 1 : Nat)) with
  | some d => d.stripped 17
  | none => b.exact

/-! ### Layout -/

/-- Which decimals are written positionally: those whose point stands after at least `least`
and at most `most` digits, counted from the first digit. -/
structure Layout where
  /-- Least place of the point. -/
  least : Int
  /-- Greatest place of the point. -/
  most : Int

/-- A decimal in positional form, with at least one digit on either side of the point, or
with one digit before the point and a power of ten. -/
def Layout.render (layout : Layout) (d : Scientific) : String :=
  let digits := toString d.digits
  let count := digits.length
  let point := (count : Int) + d.exponent
  if layout.least ≤ point && point ≤ layout.most then
    if 0 ≤ d.exponent then
      digits ++ String.ofList (List.replicate d.exponent.toNat '0') ++ ".0"
    else if 0 < point then
      String.ofList (digits.toList.take point.toNat) ++ "." ++
        String.ofList (digits.toList.drop point.toNat)
    else
      "0." ++ String.ofList (List.replicate (-point).toNat '0') ++ digits
  else
    let lead := String.ofList (digits.toList.take 1)
    let rest := String.ofList (digits.toList.drop 1)
    let power := point - 1
    lead ++ (if count = 1 then "" else "." ++ rest) ++ "e" ++
      (if 0 ≤ power then "+" else "-") ++ toString power.natAbs

end ApiSurface.Decimal
