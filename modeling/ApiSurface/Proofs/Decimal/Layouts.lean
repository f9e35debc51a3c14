import ApiSurface.Proofs.Decimal.Intervals
import Mathlib.Data.List.TakeWhile

/-!
# Layouts keep the number

A decimal is written positionally or with a power of ten. Either way the number can be told
from what is written: it is that of all digits, moved by the digits after the point and by
the power after the letter `e`.

## Main definitions

* `decimalOf`: the number that the characters of a numeral denote.

## Main results

* `laidOut_render`: the ways in which a decimal is written.
* `decimalOf_of_laidOut`: what is written denotes the decimal.
* `LaidOut.numeric`, `LaidOut.begins`, `LaidOut.marked`: the characters that are written.
-/

namespace ApiSurface.Decimal

/-! ### The number of a numeral -/

/-- The number that digits denote. -/
def digitsOf (cs : List Char) : Nat := Nat.ofDigitChars 10 cs 0

/-- The number that digits denote with a point among them, times a power of ten. -/
def mantissaOf (cs : List Char) (power : Int) : ℚ :=
  let whole := cs.takeWhile (· ≠ '.')
  let fraction := (cs.dropWhile (· ≠ '.')).drop 1
  digitsOf (whole ++ fraction) * 10 ^ (power - fraction.length)

/-- The power of ten that a sign and digits denote. -/
def powerOf : List Char → Int
  | '+' :: digits => digitsOf digits
  | '-' :: digits => -(digitsOf digits : Int)
  | _ => 0

/-- The number that the characters of a numeral without sign denote: digits, with a point
among them or not, and a power of ten after the letter `e` or none. -/
def decimalOf (cs : List Char) : ℚ :=
  mantissaOf (cs.takeWhile (· ≠ 'e')) (powerOf ((cs.dropWhile (· ≠ 'e')).drop 1))

/-- Whether all characters are digits. -/
def AreDigits (cs : List Char) : Prop := ∀ c ∈ cs, c.isDigit

theorem areDigits_toDigits (n : Nat) : AreDigits (Nat.toDigits 10 n) := fun _ =>
  Nat.isDigit_of_mem_toDigits (by decide) (by decide)

theorem areDigits_zeros (n : Nat) : AreDigits (List.replicate n '0') := by
  intro c hc
  rw [List.eq_of_mem_replicate hc]
  rfl

theorem AreDigits.append {cs cs' : List Char} (h : AreDigits cs) (h' : AreDigits cs') :
    AreDigits (cs ++ cs') :=
  List.forall_mem_append.mpr ⟨h, h'⟩

/-- A character that is no digit is not among digits. -/
theorem AreDigits.notMem {cs : List Char} {mark : Char} (h : AreDigits cs)
    (hmark : mark.isDigit = false) : mark ∉ cs := by
  intro hmem
  have hdigit := h mark hmem
  rw [hmark] at hdigit
  cases hdigit

section Parts

variable {whole cs : List Char}

/-- All characters come before a mark that is not among them. -/
theorem all_ne_of_notMem {mark : Char} (h : mark ∉ cs) :
    ∀ c ∈ cs, decide (c ≠ mark) = true := by
  intro c hc
  refine decide_eq_true ?_
  rintro rfl
  exact h hc

/-- Digits without a point. -/
theorem mantissaOf_digits (h : AreDigits whole) (power : Int) :
    mantissaOf whole power = digitsOf whole * 10 ^ power := by
  have hall := all_ne_of_notMem (h.notMem (rfl : '.'.isDigit = false))
  have htake : whole.takeWhile (· ≠ '.') = whole := List.takeWhile_eq_self_iff.mpr hall
  have hdrop : whole.dropWhile (· ≠ '.') = [] := List.dropWhile_eq_nil_iff.mpr hall
  rw [mantissaOf, htake, hdrop]
  simp

/-- Digits with a point among them. -/
theorem mantissaOf_point (h : AreDigits whole) (fraction : List Char) (power : Int) :
    mantissaOf (whole ++ '.' :: fraction) power =
      digitsOf (whole ++ fraction) * 10 ^ (power - fraction.length) := by
  have hall := all_ne_of_notMem (h.notMem (rfl : '.'.isDigit = false))
  rw [mantissaOf, List.takeWhile_append_of_pos hall, List.dropWhile_append_of_pos hall]
  simp

/-- A numeral without a power of ten. -/
theorem decimalOf_plain (h : 'e' ∉ cs) : decimalOf cs = mantissaOf cs 0 := by
  have hall := all_ne_of_notMem h
  rw [decimalOf, List.takeWhile_eq_self_iff.mpr hall, List.dropWhile_eq_nil_iff.mpr hall]
  rfl

/-- A numeral with a power of ten. -/
theorem decimalOf_power (h : 'e' ∉ cs) (power : List Char) :
    decimalOf (cs ++ 'e' :: power) = mantissaOf cs (powerOf power) := by
  have hall := all_ne_of_notMem h
  rw [decimalOf, List.takeWhile_append_of_pos hall, List.dropWhile_append_of_pos hall]
  simp

end Parts

/-! ### What a layout writes -/

/-- The digits of a number denote it. -/
theorem digitsOf_toDigits (n : Nat) : digitsOf (Nat.toDigits 10 n) = n :=
  Nat.ofDigitChars_ten_toDigits

/-- A number has a first digit. -/
theorem exists_first_digit (n : Nat) : ∃ first rest, Nat.toDigits 10 n = first :: rest :=
  List.exists_cons_of_ne_nil Nat.toDigits_ne_nil

/-- The sign and the digits of a power denote it. -/
theorem powerOf_written (power : Int) :
    powerOf ((if 0 ≤ power then '+' else '-') :: Nat.toDigits 10 power.natAbs) = power := by
  split
  · rw [powerOf, digitsOf_toDigits]
    omega
  · rw [powerOf, digitsOf_toDigits]
    omega

/-- The ways in which a decimal is written, whatever the layout. -/
inductive LaidOut (d : Scientific) : List Char → Prop
  /-- Zeros are added for the power of ten, and one after the point. -/
  | whole (h : 0 ≤ d.exponent) :
      LaidOut d (Nat.toDigits 10 d.digits ++ List.replicate d.exponent.toNat '0' ++ ['.', '0'])
  /-- The point stands among the digits. -/
  | among {first : Char} {more fraction : List Char}
      (h : Nat.toDigits 10 d.digits = first :: more ++ fraction)
      (power : d.exponent = -fraction.length) : LaidOut d (first :: more ++ '.' :: fraction)
  /-- Zeros stand between the point and the digits. -/
  | below (zeros : Nat)
      (power : d.exponent = -(zeros + (Nat.toDigits 10 d.digits).length : Nat)) :
      LaidOut d ('0' :: '.' :: (List.replicate zeros '0' ++ Nat.toDigits 10 d.digits))
  /-- A power of ten follows a single digit. -/
  | single {first : Char} (h : Nat.toDigits 10 d.digits = [first]) :
      LaidOut d (first :: 'e' :: (if 0 ≤ d.exponent then '+' else '-') ::
        Nat.toDigits 10 d.exponent.natAbs)
  /-- A power of ten follows the digits, with the point after the first one. -/
  | powered {first : Char} {rest : List Char} {power : Int}
      (h : Nat.toDigits 10 d.digits = first :: rest)
      (moved : power = d.exponent + rest.length) :
      LaidOut d (first :: '.' :: rest ++
        'e' :: (if 0 ≤ power then '+' else '-') :: Nat.toDigits 10 power.natAbs)

/-- What a layout writes is laid out. -/
theorem laidOut_render (layout : Layout) (d : Scientific) :
    LaidOut d (layout.render d).toList := by
  obtain ⟨first, rest, hwritten⟩ := exists_first_digit d.digits
  have hchars : (toString d.digits).toList = Nat.toDigits 10 d.digits := by
    rw [Nat.toString_eq_repr, Nat.toList_repr]
  have hlength : (toString d.digits).length = rest.length + 1 := by
    rw [← String.length_toList, hchars, hwritten, List.length_cons]
  unfold Layout.render
  simp only [hlength, hchars]
  split
  case isTrue =>
    split
    case isTrue hpos =>
      simp only [String.toList_append, String.toList_ofList, hchars]
      exact .whole hpos
    case isFalse hneg =>
      split
      case isTrue hpoint =>
        obtain ⟨n, hn⟩ : ∃ n : Nat, ((rest.length + 1 : Nat) + d.exponent).toNat = n + 1 :=
          ⟨((rest.length + 1 : Nat) + d.exponent).toNat - 1, by omega⟩
        have hsplit : Nat.toDigits 10 d.digits = first :: rest.take n ++ rest.drop n := by
          rw [hwritten, List.cons_append, List.take_append_drop]
        have hpower : d.exponent = -((rest.drop n).length : Int) := by
          rw [List.length_drop]
          omega
        simp only [String.toList_append, String.toList_ofList, hn, hwritten,
          List.take_succ_cons, List.drop_succ_cons]
        rw [show ".".toList = ['.'] from rfl, List.append_assoc, List.singleton_append]
        exact .among hsplit hpower
      case isFalse hpoint =>
        have hpower : d.exponent = -(((-((rest.length + 1 : Nat) + d.exponent)).toNat +
            (Nat.toDigits 10 d.digits).length : Nat) : Int) := by
          rw [hwritten, List.length_cons]
          omega
        simp only [String.toList_append, String.toList_ofList, hchars]
        exact .below _ hpower
  case isFalse =>
    have hmoved :
        ((rest.length + 1 : Nat) : Int) + d.exponent - 1 = d.exponent + rest.length := by omega
    have hsign (power : Int) :
        (if 0 ≤ power then "+" else "-").toList = [if 0 ≤ power then '+' else '-'] := by
      split <;> rfl
    simp only [String.toList_append, String.toList_ofList, hwritten, List.take_succ_cons,
      List.take_zero, List.drop_succ_cons, List.drop_zero, hmoved, hsign, Nat.toString_eq_repr,
      Nat.toList_repr]
    cases rest with
    | nil =>
      rw [List.length_nil, Int.natCast_zero, add_zero]
      exact .single hwritten
    | cons second rest =>
      rw [if_neg (by simp), String.toList_append, String.toList_ofList]
      simpa using LaidOut.powered hwritten rfl

/-- Zeros after digits multiply the number, and zeros before them change nothing. -/
theorem digitsOf_append_zeros (cs : List Char) (n : Nat) :
    digitsOf (cs ++ List.replicate n '0') = 10 ^ n * digitsOf cs := by
  rw [digitsOf, Nat.ofDigitChars_append, Nat.ofDigitChars_replicate_zero]
  rfl

theorem digitsOf_zeros_append (n : Nat) (cs : List Char) :
    digitsOf (List.replicate n '0' ++ cs) = digitsOf cs := by
  rw [digitsOf, Nat.ofDigitChars_append, Nat.ofDigitChars_replicate_zero]
  rfl

/-- The letter `e` is not among digits with a point. -/
theorem notMem_point {whole fraction : List Char} (hwhole : AreDigits whole)
    (hfraction : AreDigits fraction) : 'e' ∉ whole ++ '.' :: fraction := by
  intro he
  rcases List.mem_append.mp he with hmem | hmem
  · exact hwhole.notMem rfl hmem
  · obtain hpoint | hlater := List.mem_cons.mp hmem
    · cases hpoint
    · exact hfraction.notMem rfl hlater

/-- **Layouts.** What is written for a decimal denotes it. -/
theorem decimalOf_of_laidOut {d : Scientific} {cs : List Char} (h : LaidOut d cs) :
    decimalOf cs = d.value := by
  have hdigits := areDigits_toDigits d.digits
  have hvalue := digitsOf_toDigits d.digits
  rw [Scientific.value]
  cases h with
  | whole h =>
    obtain ⟨n, hn⟩ := Int.eq_ofNat_of_zero_le h
    have hwhole := hdigits.append (areDigits_zeros d.exponent.toNat)
    have hzero : AreDigits ['0'] := areDigits_zeros 1
    have hzeros : List.replicate n '0' ++ ['0'] = List.replicate (n + 1) '0' :=
      List.replicate_succ'.symm
    rw [decimalOf_plain (notMem_point hwhole hzero), mantissaOf_point hwhole, hn,
      Int.toNat_natCast, List.append_assoc, hzeros, digitsOf_append_zeros, hvalue]
    simp [pow_succ]
    field_simp
  | @among first more fraction h power =>
    rw [h] at hdigits hvalue
    obtain ⟨hwhole, hfraction⟩ := List.forall_mem_append.mp hdigits
    rw [decimalOf_plain (notMem_point hwhole hfraction), mantissaOf_point hwhole, hvalue,
      power, zero_sub]
  | below zeros power =>
    have hzero : AreDigits ['0'] := areDigits_zeros 1
    have hfraction := (areDigits_zeros zeros).append hdigits
    have hlength : (List.replicate zeros '0' ++ Nat.toDigits 10 d.digits).length =
        zeros + (Nat.toDigits 10 d.digits).length := by
      rw [List.length_append, List.length_replicate]
    have hnumber :
        digitsOf (['0'] ++ (List.replicate zeros '0' ++ Nat.toDigits 10 d.digits)) =
          d.digits := by
      rw [show ['0'] = List.replicate 1 '0' from rfl, digitsOf_zeros_append,
        digitsOf_zeros_append, hvalue]
    rw [show '0' :: '.' :: (List.replicate zeros '0' ++ Nat.toDigits 10 d.digits) = ['0'] ++
      '.' :: _ from rfl, decimalOf_plain (notMem_point hzero hfraction),
      mantissaOf_point hzero, hnumber, hlength, power, zero_sub]
  | @single first h =>
    rw [h] at hdigits hvalue
    rw [show first :: 'e' :: _ = [first] ++ 'e' :: _ from rfl,
      decimalOf_power (hdigits.notMem rfl), mantissaOf_digits hdigits, powerOf_written, hvalue]
  | @powered first rest power h moved =>
    rw [h] at hdigits hvalue
    obtain ⟨hfirst, hrest⟩ := List.forall_mem_cons.mp hdigits
    have hwhole : AreDigits [first] := List.forall_mem_singleton.mpr hfirst
    rw [show first :: '.' :: rest = [first] ++ '.' :: rest from rfl,
      decimalOf_power (notMem_point hwhole hrest), mantissaOf_point hwhole, powerOf_written,
      List.singleton_append, hvalue, moved, add_sub_cancel_right]

/-! ### The characters of a numeral -/

/-- Whether a character occurs in numerals. -/
def IsNumeric (c : Char) : Prop := c.isDigit ∨ c ∈ ['.', 'e', '+', '-']

theorem AreDigits.numeric {cs : List Char} (h : AreDigits cs) : ∀ c ∈ cs, IsNumeric c :=
  fun c hc => .inl (h c hc)

section LaidOut

variable {d : Scientific} {cs : List Char}

/-- The sign and the digits of a power of ten occur in numerals. -/
theorem numeric_power (power : Int) :
    ∀ c ∈ 'e' :: (if 0 ≤ power then '+' else '-') :: Nat.toDigits 10 power.natAbs,
      IsNumeric c := by
  refine List.forall_mem_cons.mpr ⟨.inr (by decide), List.forall_mem_cons.mpr ⟨?_, ?_⟩⟩
  · split
    · exact .inr (by decide)
    · exact .inr (by decide)
  · exact (areDigits_toDigits _).numeric

/-- What is written has no other characters than those of numerals. -/
theorem LaidOut.numeric (h : LaidOut d cs) : ∀ c ∈ cs, IsNumeric c := by
  have hdigits := (areDigits_toDigits d.digits).numeric
  have hpoint : IsNumeric '.' := .inr (by decide)
  have hzero : IsNumeric '0' := .inl rfl
  have hzeros (n : Nat) := (areDigits_zeros n).numeric
  cases h with
  | whole h =>
    refine List.forall_mem_append.mpr ⟨List.forall_mem_append.mpr ⟨hdigits, hzeros _⟩, ?_⟩
    exact List.forall_mem_cons.mpr ⟨hpoint, List.forall_mem_singleton.mpr hzero⟩
  | among h power =>
    rw [h] at hdigits
    obtain ⟨hwhole, hfraction⟩ := List.forall_mem_append.mp hdigits
    exact List.forall_mem_append.mpr ⟨hwhole, List.forall_mem_cons.mpr ⟨hpoint, hfraction⟩⟩
  | below zeros power =>
    refine List.forall_mem_cons.mpr ⟨hzero, List.forall_mem_cons.mpr ⟨hpoint, ?_⟩⟩
    exact List.forall_mem_append.mpr ⟨hzeros zeros, hdigits⟩
  | single h =>
    rw [h] at hdigits
    exact List.forall_mem_cons.mpr ⟨List.forall_mem_singleton.mp hdigits, numeric_power _⟩
  | powered h moved =>
    rw [h] at hdigits
    obtain ⟨hfirst, hrest⟩ := List.forall_mem_cons.mp hdigits
    refine List.forall_mem_append.mpr ⟨?_, numeric_power _⟩
    exact List.forall_mem_cons.mpr ⟨hfirst, List.forall_mem_cons.mpr ⟨hpoint, hrest⟩⟩

/-- What is written begins with a digit. -/
theorem LaidOut.begins (h : LaidOut d cs) : ∃ c rest, cs = c :: rest ∧ c.isDigit := by
  have hdigits := areDigits_toDigits d.digits
  cases h with
  | whole h =>
    obtain ⟨first, rest, hwritten⟩ := exists_first_digit d.digits
    rw [hwritten] at hdigits ⊢
    exact ⟨first, _, rfl, hdigits first List.mem_cons_self⟩
  | among h power =>
    rw [h] at hdigits
    exact ⟨_, _, rfl, hdigits _ List.mem_cons_self⟩
  | below zeros power => exact ⟨_, _, rfl, rfl⟩
  | single h | powered h moved =>
    rw [h] at hdigits
    exact ⟨_, _, rfl, hdigits _ List.mem_cons_self⟩

/-- What is written is not made of digits alone. -/
theorem LaidOut.marked (h : LaidOut d cs) : ¬ AreDigits cs := by
  intro hall
  have hpoint : '.' ∉ cs := hall.notMem rfl
  have hpower : 'e' ∉ cs := hall.notMem rfl
  cases h with
  | whole h | among h power => exact hpoint (by simp)
  | below zeros power | powered h moved => exact hpoint (by simp)
  | single h => exact hpower (by simp)

end LaidOut

end ApiSurface.Decimal
