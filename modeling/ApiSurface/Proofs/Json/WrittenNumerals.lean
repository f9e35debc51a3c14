import ApiSurface.Json.Document
import ApiSurface.Proofs.Json.Written

/-!
# Numerals as written

Where a numeral ends shows from the byte after it, which is none that could go on with the
numeral. Up to there each part is read as it is written: the digits before the point, those
after it, and the exponent. The way the exponent is marked is not read.

## Main definitions

* `EndsNumeral`: texts that can follow a numeral.

## Main results

* `Cursor.numeral_written`: the parts of a written numeral.
* `numberNode_written`: the node of a written numeral.
-/

namespace ApiSurface.Json

open Text

/-! ### Where a numeral ends -/

/-- Whether a text ends or goes on with a byte that goes on with no numeral. -/
def EndsNumeral (rest : List UInt8) : Prop :=
  ∀ b ∈ rest.head?, isDigit b = false ∧ b ≠ 46 ∧ b ≠ 101 ∧ b ≠ 69

theorem endsNumeral_nil : EndsNumeral [] := nofun

theorem endsNumeral_cons {b : UInt8} (h : isDigit b = false ∧ b ≠ 46 ∧ b ≠ 101 ∧ b ≠ 69)
    (rest : List UInt8) : EndsNumeral (b :: rest) := by
  rintro b' ⟨⟩
  exact h

/-! ### Digits -/

/-- A digit is written as one byte. -/
theorem byte_of_fin : ∀ d : Fin 10,
    String.utf8EncodeChar (digitChar d) = [(digitChar d).toUInt8] ∧
    isDigit (digitChar d).toUInt8 = true ∧
      digitValue (digitChar d).toUInt8 = d.val := by
  decide

/-- Whether a text ends or goes on with something other than a digit. -/
def EndsDigits (rest : List UInt8) : Prop := ∀ b ∈ rest.head?, isDigit b = false

/-- The digits at a place are those written there, if no further digit follows. -/
theorem Cursor.digits_written (ds : List (Fin 10)) {rest : List UInt8}
    (hrest : EndsDigits rest) (offset : Nat) :
    ∃ stop, Cursor.digits ⟨encode (ds.map digitChar) ++ rest, offset⟩ =
      (ds.map Fin.val, ⟨rest, stop⟩) := by
  let bytes := ds.map fun d => (digitChar d).toUInt8
  have hbytes : encode (ds.map digitChar) = bytes := by
    rw [encode, List.flatMap_map, show bytes = _ from List.map_eq_flatMap]
    exact List.flatMap_congr fun d _ => (byte_of_fin d).1
  have hdigits : ∀ b ∈ bytes, isDigit b = true :=
    List.forall_mem_map.mpr fun d _ => (byte_of_fin d).2.1
  have hvalues : bytes.map digitValue = ds.map Fin.val := by
    rw [List.map_map]
    exact List.map_congr_left fun d _ => (byte_of_fin d).2.2
  have hrun : (bytes ++ rest).takeWhile isDigit = bytes := by
    rw [List.takeWhile_append_of_pos hdigits]
    cases rest with
    | nil => rw [List.takeWhile_nil, List.append_nil]
    | cons b rest => rw [List.takeWhile_cons_of_neg (by simp [hrest b rfl]), List.append_nil]
  refine ⟨offset + bytes.length, ?_⟩
  rw [Cursor.digits, hbytes, hrun, hvalues, List.drop_left]

namespace Digits

variable (ds : Digits)

/-- The first byte of some digits. -/
def firstByte : UInt8 := (digitChar ds.first).toUInt8

/-- Digits begin with the byte of the first one. -/
theorem encode_chars : encode ds.chars = ds.firstByte :: encode (ds.later.map digitChar) := by
  rw [chars, all, List.map_cons, encode_cons, (byte_of_fin ds.first).1]
  rfl

theorem isDigit_firstByte : isDigit ds.firstByte = true := (byte_of_fin ds.first).2.1

/-- Only zero has the byte of zero. -/
theorem first_eq_zero (h : ds.firstByte = 48) : ds.first = 0 := by
  have hvalue : digitValue ds.firstByte = ds.first.val := (byte_of_fin ds.first).2.2
  rw [h] at hvalue
  exact Fin.ext hvalue.symm

end Digits

/-- Digits are read up to what is no digit. -/
theorem Cursor.someDigits_written (ds : Digits) {rest : List UInt8} (hrest : EndsDigits rest)
    (offset : Nat) :
    ∃ stop, Cursor.someDigits ⟨encode ds.chars ++ rest, offset⟩ =
      .ok (ds.values, ⟨rest, stop⟩) := by
  obtain ⟨stop, hdigits⟩ := Cursor.digits_written ds.all hrest offset
  refine ⟨stop, ?_⟩
  rw [Cursor.someDigits, Digits.chars, hdigits]
  rfl

/-- The digits before the point are read up to what is no digit. -/
theorem Cursor.wholeDigits_written (ds : Digits) (canonical : ds.first = 0 → ds.later = [])
    {rest : List UInt8} (hrest : EndsDigits rest) (offset : Nat) :
    ∃ stop, Cursor.wholeDigits ⟨encode ds.chars ++ rest, offset⟩ =
      .ok (ds.values, ⟨rest, stop⟩) := by
  rw [Cursor.wholeDigits]
  split
  · next b tail heq =>
    rw [ds.encode_chars, List.cons_append, List.cons.injEq] at heq
    have hzero := ds.first_eq_zero heq.1
    have hlater := canonical hzero
    have hrest' : rest = b :: tail := by simpa [hlater] using heq.2
    have hb : isDigit b = false := hrest b (by rw [hrest']; rfl)
    rw [if_neg (by simp [hb])]
    refine ⟨offset + 1, ?_⟩
    simp only [Digits.values, Digits.all, hzero, hlater, Digits.encode_chars]
    rfl
  · exact Cursor.someDigits_written ds hrest offset

/-! ### Fractions and exponents -/

/-- An exponent, or what follows a numeral, begins with neither a digit nor a point. -/
theorem endsDigits_exponent (e : Option Exponent) {rest : List UInt8}
    (hrest : EndsNumeral rest) :
    ∀ b ∈ (encode (exponentChars e) ++ rest).head?, isDigit b = false ∧ b ≠ 46 := by
  cases e with
  | none => exact fun b hb => ⟨(hrest b hb).1, (hrest b hb).2.1⟩
  | some e =>
    rw [exponentChars, Exponent.chars]
    cases e.capital <;> rintro b ⟨⟩ <;> decide +revert

/-- A fraction and an exponent begin with no digit. -/
theorem endsDigits_fraction (f : Option Digits) (e : Option Exponent) {rest : List UInt8}
    (hrest : EndsNumeral rest) :
    EndsDigits (encode (fractionChars f) ++ (encode (exponentChars e) ++ rest)) := by
  cases f with
  | none => exact fun b hb => (endsDigits_exponent e hrest b hb).1
  | some digits =>
    rintro b ⟨⟩
    decide

/-- A fraction is read, if there is one. -/
theorem Cursor.fractionDigits_written (f : Option Digits) {rest : List UInt8}
    (hrest : ∀ b ∈ rest.head?, isDigit b = false ∧ b ≠ 46) (offset : Nat) :
    ∃ stop, Cursor.fractionDigits ⟨encode (fractionChars f) ++ rest, offset⟩ =
      .ok (f.map Digits.values, ⟨rest, stop⟩) := by
  cases f with
  | none =>
    refine ⟨offset, ?_⟩
    rw [Cursor.fractionDigits]
    split
    · next tail heq => exact absurd rfl (hrest 46 (congrArg List.head? heq)).2
    · rfl
  | some digits =>
    obtain ⟨stop, hdigits⟩ :=
      Cursor.someDigits_written digits (fun b hb => (hrest b hb).1) (offset + 1)
    refine ⟨stop, ?_⟩
    change Cursor.someDigits ⟨encode digits.chars ++ rest, offset + 1⟩ >>= _ = _
    rw [hdigits]
    rfl

/-- The digits of an exponent, after its letter and its sign. -/
theorem Cursor.exponentDigits_marked (sign : Option Bool) (digits : Digits) {mark : UInt8}
    (hmark : (mark = 101 || mark = 69) = true) (rest : List UInt8) (offset : Nat) :
    ∃ place, Cursor.exponentDigits
        ⟨mark :: (encode (sign.toList.map signChar) ++ (encode digits.chars ++ rest)),
          offset⟩ = do
      let (digits, c) ← Cursor.someDigits ⟨encode digits.chars ++ rest, place⟩
      return (some (sign == some true, digits), c) := by
  rw [Cursor.exponentDigits.eq_def]
  simp only [hmark, if_true]
  match sign with
  | none =>
    have hdigit := digits.isDigit_firstByte
    have hplus : digits.firstByte ≠ 43 := fun h => by simp [h, isDigit] at hdigit
    have hminus : digits.firstByte ≠ 45 := fun h => by simp [h, isDigit] at hdigit
    refine ⟨offset + 1, ?_⟩
    simp [Cursor.next, digits.encode_chars, hplus, hminus]
  | some false => exact ⟨offset + 2, rfl⟩
  | some true => exact ⟨offset + 2, rfl⟩

/-- An exponent is read, if there is one, without the way it is marked. -/
theorem Cursor.exponentDigits_written (e : Option Exponent) {rest : List UInt8}
    (hrest : EndsNumeral rest) (offset : Nat) :
    ∃ stop, Cursor.exponentDigits ⟨encode (exponentChars e) ++ rest, offset⟩ =
      .ok (e.map fun e => (e.sign == some true, e.digits.values), ⟨rest, stop⟩) := by
  cases e with
  | none =>
    refine ⟨offset, ?_⟩
    show Cursor.exponentDigits ⟨rest, offset⟩ = _
    rw [Cursor.exponentDigits.eq_def]
    cases rest with
    | nil => rfl
    | cons b rest =>
      obtain ⟨-, -, hsmall, hcapital⟩ := hrest b rfl
      simp [hsmall, hcapital]
  | some e =>
    obtain ⟨mark, hmark, hletter⟩ : ∃ mark,
        String.utf8EncodeChar (exponentMark e.capital) = [mark] ∧
          (mark = 101 || mark = 69) = true := by
      cases e.capital
      · exact ⟨101, rfl, rfl⟩
      · exact ⟨69, rfl, rfl⟩
    obtain ⟨place, hexponent⟩ :=
      Cursor.exponentDigits_marked e.sign e.digits hletter rest offset
    obtain ⟨stop, hdigits⟩ :=
      Cursor.someDigits_written e.digits (fun b hb => (hrest b hb).1) place
    refine ⟨stop, ?_⟩
    rw [exponentChars, Exponent.chars, encode_cons, encode_append, hmark, List.append_assoc,
      List.append_assoc, List.singleton_append, hexponent, hdigits]
    rfl

/-! ### Numerals -/

/-- A numeral is read up to what goes on with no numeral, as its parts. -/
theorem Cursor.numeral_written (l : WrittenNumeral) {rest : List UInt8}
    (hrest : EndsNumeral rest) (offset : Nat) :
    ∃ stop, Cursor.numeral ⟨encode l.chars ++ rest, offset⟩ =
      .ok (l.numeral, ⟨rest, stop⟩) := by
  have hsign : ((encode l.chars ++ rest).head? == some 45) = l.negative := by
    have hfirst : l.whole.firstByte ≠ 45 :=
      fun h => by simpa [h, isDigit] using l.whole.isDigit_firstByte
    rw [WrittenNumeral.chars]
    cases l.negative with
    | true => rfl
    | false => simp [l.whole.encode_chars, hfirst]
  have hwhole : ∃ place, (if l.negative then Cursor.next ⟨encode l.chars ++ rest, offset⟩
      else ⟨encode l.chars ++ rest, offset⟩) = ⟨encode l.whole.chars ++
        (encode (fractionChars l.fraction) ++ (encode (exponentChars l.exponent) ++ rest)),
        place⟩ := by
    rw [WrittenNumeral.chars]
    simp only [encode_append, List.append_assoc]
    cases l.negative with
    | true => exact ⟨offset + 1, rfl⟩
    | false => exact ⟨offset, rfl⟩
  obtain ⟨place, hplace⟩ := hwhole
  obtain ⟨point, hdigits⟩ := Cursor.wholeDigits_written l.whole l.canonical
    (endsDigits_fraction l.fraction l.exponent hrest) place
  obtain ⟨mark, hfraction⟩ :=
    Cursor.fractionDigits_written l.fraction (endsDigits_exponent l.exponent hrest) point
  obtain ⟨stop, hexponent⟩ := Cursor.exponentDigits_written l.exponent hrest mark
  refine ⟨stop, ?_⟩
  simp only [Cursor.numeral, hsign, hplace, hdigits, hfraction, hexponent, Except.ok_bind]
  rfl

/-- Which number a numeral denotes, if any, does not depend on the place after it. -/
theorem numberAt_toOption (l : Numeral) (stop : Nat) :
    (numberAt l stop).toOption = l.value.toOption := by
  rw [numberAt]
  cases l.value <;> rfl

/-- **Numerals.** A written numeral is read as the number that its parts denote. -/
theorem numberNode_written (l : WrittenNumeral) {rest : List UInt8} (hrest : EndsNumeral rest)
    (offset : Nat) :
    ∃ start value stop, numberNode ⟨encode l.chars ++ rest, offset⟩ =
        (.number start value stop, some ⟨rest, stop⟩) ∧
        value.toOption = l.numeral.value.toOption := by
  obtain ⟨stop, hnumeral⟩ := Cursor.numeral_written l hrest offset
  rw [numberNode, hnumeral]
  exact ⟨_, _, _, rfl, numberAt_toOption l.numeral stop⟩

end ApiSurface.Json
