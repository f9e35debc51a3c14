import ApiSurface.Decimal.Shortest
import Mathlib.Algebra.Order.Field.Power
import Mathlib.Algebra.Order.Ring.Rat
import Mathlib.Tactic.FieldSimp
import Mathlib.Tactic.Linarith
import Mathlib.Tactic.Positivity
import Mathlib.Tactic.Ring

/-!
# Decimals tell binary numbers apart

The binary numbers that 64 bits stand for, without their sign, are numbered from zero on in
increasing order. Each has an interval of reals that round to it. The upper end of an
interval is the lower end of the next one, and of two neighbours exactly one, the one with
the even significand, has the end they share. So no real rounds to two of them, and since
the shortest decimal of a binary number rounds to it, it tells which number it is.

## Main definitions

* `Binary.low`, `Binary.high`, `Binary.Covers`: the reals that round to a binary number.
* `Binary.ofMagnitude`: the binary numbers in increasing order.

## Main results

* `Binary.stands_iff`: what the search for a decimal compares.
* `Binary.covers_shortest`: the shortest decimal of a binary number rounds to it.
* `Binary.Covers.unique`: no real rounds to two binary numbers.
-/

namespace ApiSurface.Decimal

/-- The number that a decimal denotes. -/
def Scientific.value (d : Scientific) : ℚ := d.digits * 10 ^ d.exponent

/-! ### Comparing -/

/-- A power with its negative part as a factor. -/
theorem pow_toNat_eq {base : ℚ} (h : base ≠ 0) (e : Int) :
    base ^ e.toNat = base ^ e * base ^ (-e).toNat := by
  obtain ⟨n, rfl | rfl⟩ := e.eq_nat_or_neg
  · simp
  · simp [h]

/-- The two sides of a comparison, cleared of the negative powers by one factor. -/
theorem cleared_eq (d : Nat) (e : Int) (n : Nat) (p : Int) :
    (((d * Nat.pow 10 e.toNat) <<< (-p).toNat : Nat) : ℚ) =
        d * 10 ^ e * (10 ^ (-e).toNat * 2 ^ (-p).toNat) ∧
      (((n * Nat.pow 10 (-e).toNat) <<< p.toNat : Nat) : ℚ) =
        n * 2 ^ p * (10 ^ (-e).toNat * 2 ^ (-p).toNat) := by
  have hten := pow_toNat_eq (show (10 : ℚ) ≠ 0 by norm_num) e
  have htwo := pow_toNat_eq (show (2 : ℚ) ≠ 0 by norm_num) p
  simp only [Nat.shiftLeft_eq, Nat.cast_mul, Nat.cast_pow, Nat.cast_ofNat, Nat.pow_eq]
  rw [hten, htwo]
  constructor <;> ring

section Compare

variable {d n : Nat} {e p : Int}

/-- A decimal is compared with a binary number as the numbers that they denote. -/
theorem compareWithBinary_eq_lt :
    compareWithBinary d e n p = .lt ↔ (d : ℚ) * 10 ^ e < n * 2 ^ p := by
  obtain ⟨hleft, hright⟩ := cleared_eq d e n p
  rw [compareWithBinary, Nat.compare_eq_lt, ← Nat.cast_lt (α := ℚ), hleft, hright]
  exact mul_lt_mul_iff_of_pos_right (by positivity)

theorem compareWithBinary_eq_gt :
    compareWithBinary d e n p = .gt ↔ (n : ℚ) * 2 ^ p < d * 10 ^ e := by
  obtain ⟨hleft, hright⟩ := cleared_eq d e n p
  rw [compareWithBinary, Nat.compare_eq_gt, ← Nat.cast_lt (α := ℚ), hleft, hright]
  exact mul_lt_mul_iff_of_pos_right (by positivity)

end Compare

/-! ### The interval of a binary number -/

namespace Binary

/-- The lower end of the reals that round to a binary number. -/
def low (b : Binary) : ℚ :=
  ((4 * b.m - if b.narrowBelow then 1 else 2 : Nat) : ℚ) * 2 ^ (b.q - 2)

/-- The upper end of the reals that round to a binary number. -/
def high (b : Binary) : ℚ := ((4 * b.m + 2 : Nat) : ℚ) * 2 ^ (b.q - 2)

/-- Whether a real rounds to a binary number. The ends do if the significand is even. -/
def Covers (b : Binary) (x : ℚ) : Prop :=
  if b.m % 2 = 0 then b.low ≤ x ∧ x ≤ b.high else b.low < x ∧ x < b.high

variable {b : Binary} {x : ℚ}

/-- A real between the ends rounds to the number. -/
theorem Covers.of_between (hlow : b.low < x) (hhigh : x < b.high) : b.Covers x := by
  unfold Covers
  split
  · exact ⟨hlow.le, hhigh.le⟩
  · exact ⟨hlow, hhigh⟩

/-- A real that rounds to a number is not outside of its interval. -/
theorem Covers.between (h : b.Covers x) : b.low ≤ x ∧ x ≤ b.high := by
  unfold Covers at h
  split at h
  · exact h
  · exact ⟨h.1.le, h.2.le⟩

/-- The interval of a number has some length. -/
theorem low_lt_high (b : Binary) : b.low < b.high := by
  have hcount : (4 * b.m - if b.narrowBelow then 1 else 2 : Nat) < 4 * b.m + 2 := by omega
  exact mul_lt_mul_of_pos_right (Nat.cast_lt.mpr hcount) (by positivity)

/-- A decimal stands for a binary number exactly if it rounds to it. -/
theorem stands_iff {d : Nat} {e : Int} : b.stands d e = true ↔ b.Covers (d * 10 ^ e) := by
  rw [stands, Covers, low, high]
  split
  · simp only [Bool.and_eq_true, bne_iff_ne, ne_eq, compareWithBinary_eq_lt,
      compareWithBinary_eq_gt, not_lt]
  · simp only [Bool.and_eq_true, beq_iff_eq, compareWithBinary_eq_lt, compareWithBinary_eq_gt]

/-! ### The search -/

/-- A decimal that is found on a grid rounds to the number. -/
theorem covers_of_onGrid {e : Int} {d : Scientific} (h : b.onGrid e = some d) :
    b.Covers d.value := by
  unfold onGrid at h
  dsimp only at h
  split at h
  case h_1 hbelow habove =>
    split at h
    · cases h
      exact stands_iff.mp hbelow
    · cases h
      exact stands_iff.mp habove
    · split at h
      · cases h
        exact stands_iff.mp hbelow
      · cases h
        exact stands_iff.mp habove
  case h_2 hbelow _ =>
    cases h
    exact stands_iff.mp hbelow
  case h_3 _ habove =>
    cases h
    exact stands_iff.mp habove
  case h_4 => cases h

/-- Moving trailing zeros into the exponent does not change what a decimal denotes. -/
theorem value_stripped (fuel : Nat) (d : Scientific) : (d.stripped fuel).value = d.value := by
  induction fuel generalizing d with
  | zero => rfl
  | succ fuel ih =>
    rw [Scientific.stripped]
    split
    case isFalse => rfl
    case isTrue hzero =>
      simp only [Bool.and_eq_true, decide_eq_true_eq] at hzero
      have hdigits : d.digits = d.digits / 10 * 10 := by omega
      have hcast : (d.digits : ℚ) = (d.digits / 10 : Nat) * 10 := by exact_mod_cast hdigits
      rw [ih, Scientific.value, Scientific.value, zpow_add_one₀ (by norm_num), hcast]
      ring

/-- The exact decimal of a binary number denotes it. -/
theorem value_exact (b : Binary) : b.exact.value = b.m * 2 ^ b.q := by
  unfold exact
  split
  case isTrue hpos =>
    obtain ⟨n, hn⟩ := Int.eq_ofNat_of_zero_le hpos
    rw [Scientific.value, hn]
    simp [Nat.shiftLeft_eq]
  case isFalse hneg =>
    obtain ⟨n, hn⟩ : ∃ n : Nat, b.q = -(n : Int) := ⟨(-b.q).toNat, by omega⟩
    rw [Scientific.value, hn]
    have hten : (10 : ℚ) ^ n = 5 ^ n * 2 ^ n := by rw [← mul_pow]; norm_num
    simp [hten]
    field_simp

/-- A positive binary number rounds to itself. -/
theorem covers_self (h : 0 < b.m) : b.Covers (b.m * 2 ^ b.q) := by
  have hquarters : (b.m : ℚ) * 2 ^ b.q = (4 * b.m : Nat) * 2 ^ (b.q - 2) := by
    rw [zpow_sub₀ (by norm_num)]
    push_cast
    ring
  have hpow : (0 : ℚ) < 2 ^ (b.q - 2) := by positivity
  have hbelow : (4 * b.m - if b.narrowBelow then 1 else 2 : Nat) < 4 * b.m := by
    split <;> omega
  rw [hquarters]
  refine .of_between ?_ ?_
  · exact mul_lt_mul_of_pos_right (Nat.cast_lt.mpr hbelow) hpow
  · exact mul_lt_mul_of_pos_right (Nat.cast_lt.mpr (by omega)) hpow

/-- **The shortest decimal.** The shortest decimal of a positive binary number rounds to it. -/
theorem covers_shortest (h : 0 < b.m) : b.Covers b.shortest.value := by
  unfold shortest
  dsimp only
  split
  case h_1 d hfound =>
    obtain ⟨n, -, hgrid⟩ := List.exists_of_findSome?_eq_some hfound
    rw [value_stripped]
    exact covers_of_onGrid hgrid
  case h_2 =>
    rw [value_exact]
    exact covers_self h

end Binary

/-! ### The binary numbers in order -/

/-- The binary number that the lower 63 of 64 bits stand for, by the number that they are. -/
def Binary.ofMagnitude (k : Nat) : Binary :=
  let fraction := k % 4503599627370496
  let power := k / 4503599627370496
  if power = 0 then ⟨fraction, -1074, false⟩
  else ⟨fraction + 4503599627370496, (power : Int) - 1075, fraction = 0 && power > 1⟩

namespace Binary

/-- The highest of the 64 bits has no part in the magnitude. -/
theorem ofBits_eq (bits : UInt64) :
    ofBits bits = ofMagnitude (bits.toNat % 9223372036854775808) := by
  have hfraction : (bits &&& 0xFFFFFFFFFFFFF).toNat =
      bits.toNat % 9223372036854775808 % 4503599627370496 := by
    rw [UInt64.toNat_and]
    exact (Nat.and_two_pow_sub_one_eq_mod bits.toNat 52).trans (by omega)
  have hshift : (bits >>> 52).toNat = bits.toNat / 4503599627370496 := by
    rw [UInt64.toNat_shiftRight, Nat.shiftRight_eq_div_pow]
    rfl
  have hpower : ((bits >>> 52) &&& 0x7FF).toNat =
      bits.toNat % 9223372036854775808 / 4503599627370496 := by
    rw [UInt64.toNat_and, hshift]
    exact (Nat.and_two_pow_sub_one_eq_mod _ 11).trans (by omega)
  rw [ofBits, ofMagnitude, hfraction, hpower]

/-- The significand is even exactly if the number is. -/
theorem m_ofMagnitude_mod (k : Nat) : (ofMagnitude k).m % 2 = k % 2 := by
  unfold ofMagnitude
  dsimp only
  split
  · dsimp only
    omega
  · dsimp only
    omega

/-- The number after a number has the same power and the next fraction, or the next power
and no fraction. -/
theorem next_magnitude (k : Nat) :
    ((k + 1) % 4503599627370496 = k % 4503599627370496 + 1 ∧
        (k + 1) / 4503599627370496 = k / 4503599627370496) ∨
      k % 4503599627370496 = 4503599627370495 ∧ (k + 1) % 4503599627370496 = 0 ∧
        (k + 1) / 4503599627370496 = k / 4503599627370496 + 1 := by
  omega

/-- The interval of a number ends where that of the next number begins. -/
theorem high_ofMagnitude (k : Nat) : (ofMagnitude k).high = (ofMagnitude (k + 1)).low := by
  rw [high, low, ofMagnitude, ofMagnitude]
  rcases next_magnitude k with ⟨hfraction, hpower⟩ | ⟨hlast, hfraction, hpower⟩
  -- The next fraction of one power: the ends are counted in the same unit.
  · rw [hfraction, hpower]
    generalize k % 4503599627370496 = fraction
    split
    · have hcount : 4 * fraction + 2 = 4 * (fraction + 1) - 2 := by omega
      simp only [hcount, Bool.false_eq_true, if_false]
    · have hcount :
          4 * (fraction + 4503599627370496) + 2 = 4 * (fraction + 1 + 4503599627370496) -
            2 := by omega
      have hnarrow :
          (decide (fraction + 1 = 0) && decide (k / 4503599627370496 > 1)) = false := by simp
      simp only [hcount, hnarrow, Bool.false_eq_true, if_false]
  -- The next power: the unit stays the same after the powers that count as zero, and
  -- doubles after others.
  · rw [hlast, hfraction, hpower]
    generalize k / 4503599627370496 = power
    cases power with
    | zero => norm_num
    | succ power =>
      have hunit : (2 : ℚ) ^ (((power + 1 + 1 : Nat) : Int) - 1075 - 2) =
          2 * 2 ^ (((power + 1 : Nat) : Int) - 1075 - 2) := by
        rw [← zpow_one_add₀ (by norm_num)]
        congr 1
        push_cast
        ring
      simp only [Nat.add_eq_zero_iff, one_ne_zero, and_false, if_false]
      rw [hunit]
      norm_num
      ring

/-- Numbers that are not neighbours have intervals apart. -/
theorem high_lt_low {k k' : Nat} (h : k + 1 < k') :
    (ofMagnitude k).high < (ofMagnitude k').low := by
  induction k' with
  | zero => cases h
  | succ n ih =>
    have hwide := (ofMagnitude n).low_lt_high
    rw [high_ofMagnitude n] at hwide
    obtain hlt | rfl := Nat.lt_or_eq_of_le (Nat.le_of_lt_succ h)
    · exact (ih hlt).trans hwide
    · rwa [high_ofMagnitude k]

/-- **Numbers apart.** No real rounds to two binary numbers. -/
theorem Covers.unique {k k' : Nat} {x : ℚ} (h : (ofMagnitude k).Covers x)
    (h' : (ofMagnitude k').Covers x) : k = k' := by
  -- Of two numbers, the reals for the smaller one are not above those for the greater one.
  have hapart {k k' : Nat} (hlt : k < k') (h : (ofMagnitude k).Covers x)
      (h' : (ofMagnitude k').Covers x) : False := by
    have hx := h.between.2
    have hx' := h'.between.1
    obtain hnext | rfl : k + 1 < k' ∨ k + 1 = k' := by omega
    · have hgap := high_lt_low hnext
      linarith
    · have hshared := high_ofMagnitude k
      have heven := m_ofMagnitude_mod k
      have hodd := m_ofMagnitude_mod (k + 1)
      unfold Covers at h h'
      rcases Nat.mod_two_eq_zero_or_one k with hk | hk
      · rw [if_neg (by omega)] at h'
        linarith [h'.1]
      · rw [if_neg (by omega)] at h
        linarith [h.2]
  obtain hlt | heq | hgt := Nat.lt_trichotomy k k'
  · exact (hapart hlt h h').elim
  · exact heq
  · exact (hapart hgt h' h).elim

end Binary

end ApiSurface.Decimal
