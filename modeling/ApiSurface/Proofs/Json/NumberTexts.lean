import ApiSurface.Json.Number
import ApiSurface.Proofs.Decimal.Layouts

/-!
# Numbers are told by their texts

Different numbers are written differently. Of a floating-point number all 64 bits are
written: the sign as such, and the others by a decimal that rounds to no other number. An
integer is written with digits alone, which no floating-point number is.

## Main definitions

* `Number.negative`, `Number.body`: the sign and the unsigned numeral that are
  written for a number.

## Main results

* `Number.render_toList`: a number is written as its sign and its body.
* `Number.render_injective`: different numbers are written differently.
-/

namespace ApiSurface.Json

open Decimal

/-! ### Sign and body -/

/-- The characters for a magnitude among floating-point numbers. -/
def magnitudeChars (k : Nat) : List Char :=
  let magnitude := Binary.ofMagnitude k
  if magnitude.m = 0 then ['0', '.', '0'] else (realLayout.render magnitude.shortest).toList

/-- Whether a minus sign is written. -/
def Number.negative : Number → Bool
  | .integer i => i < 0
  | .real x => x.toBits >>> 63 = 1

/-- The characters after the sign. -/
def Number.body : Number → List Char
  | .integer i => Nat.toDigits 10 i.natAbs
  | .real x => magnitudeChars (x.toBits.toNat % 9223372036854775808)

/-- Characters after a minus sign, or without one. -/
def signedChars (negative : Bool) (cs : List Char) : List Char :=
  if negative then '-' :: cs else cs

/-- A number is written as its sign and its body. -/
theorem Number.render_toList (n : Number) :
    n.render.toList = signedChars n.negative n.body := by
  cases n with
  | integer i =>
    cases i with
    | ofNat n => simp [render, signedChars, negative, body, Int.repr]
    | negSucc n => simp [render, signedChars, negative, body, Int.repr, Int.negSucc_lt_zero]
  | real x =>
    have hbits := Binary.ofBits_eq x.toBits
    rw [render, renderReal, signedChars, negative, body, magnitudeChars, ← hbits]
    by_cases hsign : x.toBits >>> 63 = 1
    · simp only [hsign, if_true, decide_true]
      split <;> simp
    · simp only [hsign, if_false, decide_false, Bool.false_eq_true]
      split <;> simp

/-! ### Bodies -/

/-- The body of a magnitude is laid out, for a decimal that rounds to the magnitude. -/
theorem laidOut_magnitudeChars (k : Nat) :
    ∃ d, LaidOut d (magnitudeChars k) ∧ (Binary.ofMagnitude k).Covers d.value := by
  rw [magnitudeChars]
  split
  case isTrue hzero =>
    refine ⟨⟨0, 0⟩, .whole (Int.le_refl 0), ?_⟩
    have hlow : (Binary.ofMagnitude k).low = 0 := by
      rw [Binary.low, hzero]
      simp
    have hhigh := (Binary.ofMagnitude k).low_lt_high
    rw [Binary.Covers, hzero, if_pos rfl, Scientific.value]
    simp only [Nat.cast_zero, zero_mul]
    exact ⟨hlow.le, (hlow ▸ hhigh).le⟩
  case isFalse hpos =>
    exact ⟨_, laidOut_render realLayout _, Binary.covers_shortest (Nat.pos_of_ne_zero hpos)⟩

/-- Different magnitudes have different bodies. -/
theorem magnitudeChars_injective {k k' : Nat} (h : magnitudeChars k = magnitudeChars k') :
    k = k' := by
  obtain ⟨d, hlaid, hcovers⟩ := laidOut_magnitudeChars k
  obtain ⟨d', hlaid', hcovers'⟩ := laidOut_magnitudeChars k'
  have hvalue : d.value = d'.value := by
    rw [← decimalOf_of_laidOut hlaid, ← decimalOf_of_laidOut hlaid', h]
  rw [hvalue] at hcovers
  exact hcovers.unique hcovers'

namespace Number

/-- The body of a floating-point number is laid out. -/
theorem laidOut_body (x : Float) : ∃ d, LaidOut d (Number.real x).body := by
  obtain ⟨d, hlaid, -⟩ := laidOut_magnitudeChars (x.toBits.toNat % 9223372036854775808)
  exact ⟨d, hlaid⟩

/-- A body begins with a digit. -/
theorem body_begins (n : Number) : ∃ c rest, n.body = c :: rest ∧ c.isDigit := by
  cases n with
  | integer i =>
    obtain ⟨c, rest, hbody⟩ := exists_first_digit i.natAbs
    refine ⟨c, rest, hbody, areDigits_toDigits i.natAbs c ?_⟩
    rw [hbody]
    exact List.mem_cons_self
  | real x =>
    obtain ⟨d, hlaid⟩ := laidOut_body x
    exact hlaid.begins

/-- A body has no other characters than those of numerals. -/
theorem body_numeric (n : Number) : ∀ c ∈ n.body, IsNumeric c := by
  cases n with
  | integer i => exact (areDigits_toDigits i.natAbs).numeric
  | real x =>
    obtain ⟨d, hlaid⟩ := laidOut_body x
    exact hlaid.numeric

/-- A floating-point number is its bits. -/
theorem eq_of_toBits {x y : Float} (h : x.toBits = y.toBits) : x = y := by
  obtain ⟨⟨bits, valid⟩⟩ := x
  obtain ⟨⟨bits', valid'⟩⟩ := y
  obtain rfl : bits = bits' := h
  rfl

/-- A number is known by its sign and its body. -/
theorem eq_of_body {n n' : Number} (hsign : n.negative = n'.negative)
    (hbody : n.body = n'.body) : n = n' := by
  have hdigits (i : Int) (x : Float) : Number.body (.integer i) ≠ Number.body (.real x) := by
    intro h
    obtain ⟨d, hlaid⟩ := laidOut_body x
    refine hlaid.marked ?_
    rw [← h]
    exact areDigits_toDigits i.natAbs
  match n, n' with
  | .integer i, .integer i' =>
    have habs : i.natAbs = i'.natAbs := by
      rw [← digitsOf_toDigits i.natAbs, ← digitsOf_toDigits i'.natAbs]
      exact congrArg digitsOf hbody
    simp only [negative, decide_eq_decide] at hsign
    congr 1
    omega
  | .integer i, .real x => exact absurd hbody (hdigits i x)
  | .real x, .integer i => exact absurd hbody.symm (hdigits i x)
  | .real x, .real y =>
    have hmagnitude := magnitudeChars_injective hbody
    have hshift (bits : UInt64) : (bits >>> 63).toNat = bits.toNat / 9223372036854775808 := by
      rw [UInt64.toNat_shiftRight, Nat.shiftRight_eq_div_pow]
      rfl
    have hone (bits : UInt64) : bits >>> 63 = 1 ↔ bits.toNat / 9223372036854775808 = 1 := by
      rw [← UInt64.toNat_inj, hshift]
      rfl
    simp only [negative, hone, decide_eq_decide] at hsign
    have hx := x.toBits.toNat_lt
    have hy := y.toBits.toNat_lt
    have hbits : x.toBits = y.toBits := UInt64.toNat_inj.mp (by omega)
    exact congrArg Number.real (eq_of_toBits hbits)

/-- The characters of a number are those of numerals, and there is one. -/
theorem numeric_render (n : Number) : ∀ c ∈ n.render.toList, IsNumeric c := by
  rw [render_toList, signedChars]
  split
  · exact List.forall_mem_cons.mpr ⟨.inr (by decide), n.body_numeric⟩
  · exact n.body_numeric

/-- **Numbers.** Different numbers are written differently. -/
theorem render_injective {n n' : Number} (h : n.render = n'.render) : n = n' := by
  have hne {c : Char} (h : c.isDigit) : c ≠ '-' := by
    rintro rfl
    cases h
  obtain ⟨c, rest, hbody, hdigit⟩ := n.body_begins
  obtain ⟨c', rest', hbody', hdigit'⟩ := n'.body_begins
  have hchars := congrArg String.toList h
  rw [render_toList, render_toList, signedChars, signedChars] at hchars
  -- Of two numerals that are the same either both begin with a minus sign or both
  -- with a digit.
  cases hsign : n.negative <;> cases hsign' : n'.negative <;>
    simp only [hsign, hsign', Bool.false_eq_true, if_true, if_false] at hchars
  · exact eq_of_body (hsign.trans hsign'.symm) hchars
  · rw [hbody] at hchars
    exact absurd (List.cons.inj hchars).1 (hne hdigit)
  · rw [hbody'] at hchars
    exact absurd (List.cons.inj hchars).1.symm (hne hdigit')
  · exact eq_of_body (hsign.trans hsign'.symm) (List.cons.inj hchars).2

end Number

end ApiSurface.Json
