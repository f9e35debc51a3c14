import ApiSurface.Json.Lexical
import ApiSurface.Json.Value
import ApiSurface.Proofs.Results

/-!
# Characters of a string

What a reader does with the bytes of one character does not depend on what follows them,
whether the character stands for itself or is written as the letter of an escape.

## Main definitions

* `Text.encode`: the bytes that spell some characters.
* `Writes`: the ways to write a character without its code.

## Main results

* `Text.bytes_ofList`, `Text.ofBytes?_bytes`: the bytes of a text, by its characters, and back.
* `Writes.passString`, `Writes.keepString`: one written character.
-/

namespace ApiSurface

/-! ### The bytes of a text -/

namespace Text

/-- The bytes that spell some characters. -/
def encode (cs : List Char) : List UInt8 := cs.flatMap String.utf8EncodeChar

@[simp] theorem encode_nil : encode [] = [] := rfl

@[simp] theorem encode_cons (c : Char) (cs : List Char) :
    encode (c :: cs) = String.utf8EncodeChar c ++ encode cs := List.flatMap_cons

@[simp] theorem encode_append (cs ds : List Char) :
    encode (cs ++ ds) = encode cs ++ encode ds :=
  List.flatMap_append

theorem toList_loop (b : ByteArray) (i : Nat) (read : List UInt8) :
    ByteArray.toList.loop b i read = read.reverse ++ b.data.toList.drop i := by
  induction i, read using ByteArray.toList.loop.induct b with
  | case1 i read h ih =>
    have hlt : i < b.data.toList.length := h
    rw [ByteArray.toList.loop, if_pos h, ih, List.drop_eq_getElem_cons hlt, List.reverse_cons,
      List.append_assoc]
    simp [ByteArray.get!, h]
  | case2 i read h =>
    have hle : b.data.toList.length ≤ i := Nat.le_of_not_lt h
    rw [ByteArray.toList.loop, if_neg h, List.drop_eq_nil_of_le hle, List.append_nil]

/-- The bytes of a text, without the array that holds them. -/
theorem bytes_eq_data (s : String) : bytes s = s.toByteArray.data.toList := by
  rw [bytes, String.toUTF8_eq_toByteArray, ByteArray.toList, toList_loop, List.reverse_nil,
    List.nil_append, List.drop_zero]

/-- The bytes of a text are those of its characters. -/
theorem bytes_ofList (cs : List Char) : bytes (String.ofList cs) = encode cs := by
  rw [bytes_eq_data, String.toByteArray_ofList, List.utf8Encode,
    List.toList_data_toByteArray, encode]

/-- The bytes of a text spell it. -/
theorem ofBytes?_bytes (s : String) : ofBytes? (bytes s) = some s := by
  rw [ofBytes?, bytes_eq_data, Array.toArray_toList, String.fromUTF8?, dif_pos s.isValidUTF8]
  rfl

end Text

namespace Json

open Text

/-! ### The ways to write a character -/

/-- Whether a byte stands for itself in a string. -/
def IsPlainByte (b : UInt8) : Prop := 32 ≤ b ∧ b ≠ 34 ∧ b ≠ 92

/-- The ways to write a character in a string without its code: by its own bytes, or by the
letter of an escape. -/
inductive Writes (c : Char) : List UInt8 → Prop
  | plain : (∀ b ∈ String.utf8EncodeChar c, IsPlainByte b) → Writes c (String.utf8EncodeChar c)
  | letter {b plain : UInt8} : b ≠ 117 → shortEscape b = some plain →
      String.utf8EncodeChar c = [plain] → Writes c [92, b]

theorem isPlainByte_ofNat {n : Nat} (h : n < 256) (hctrl : 32 ≤ n) (hquote : n ≠ 34)
    (hslash : n ≠ 92) : IsPlainByte (UInt8.ofNat n) := by
  have hn : (UInt8.ofNat n).toNat = n := UInt8.toNat_ofNat_of_lt h
  refine ⟨?_, ?_, ?_⟩
  · rw [UInt8.le_iff_toNat_le, hn]
    exact hctrl
  · intro heq
    exact hquote (hn.symm.trans (congrArg UInt8.toNat heq))
  · intro heq
    exact hslash (hn.symm.trans (congrArg UInt8.toNat heq))

/-- The bytes of a character that needs no escape stand for themselves. -/
theorem isPlainByte_of_mem_utf8EncodeChar {c : Char} (hctrl : 32 ≤ c.toNat) (hquote : c ≠ '"')
    (hslash : c ≠ '\\') : ∀ b ∈ String.utf8EncodeChar c, IsPlainByte b := by
  have hne {d : Char} (h : c ≠ d) : c.val.toNat ≠ d.val.toNat := fun heq =>
    h (Char.ext (UInt32.toNat_inj.mp heq))
  -- A character of several bytes has only bytes above those of all escapes.
  have high {n low k : Nat} (hlow : 92 < low) (hk : 0 < k) (hle : low + k ≤ 256) :
      IsPlainByte (UInt8.ofNat (n % k + low)) := by
    have hlt := Nat.mod_lt n hk
    exact isPlainByte_ofNat (by omega) (by omega) (by omega) (by omega)
  have trail {n : Nat} : IsPlainByte (UInt8.ofNat (n % 0x40 + 0x80)) :=
    high (by decide) (by decide) (by decide)
  rw [String.utf8EncodeChar]
  split
  · rw [List.forall_mem_singleton]
    exact isPlainByte_ofNat (by omega) hctrl (hne hquote) (hne hslash)
  split
  · simp only [List.forall_mem_cons]
    exact ⟨high (by decide) (by decide) (by decide), trail, nofun⟩
  split
  · simp only [List.forall_mem_cons]
    exact ⟨high (by decide) (by decide) (by decide), trail, trail, nofun⟩
  · simp only [List.forall_mem_cons]
    exact ⟨high (by decide) (by decide) (by decide), trail, trail, trail, nofun⟩

/-! ### Reading a written character -/

theorem passString_plain {b : UInt8} (h : IsPlainByte b) (rest : List UInt8) (offset : Nat) :
    passString (b :: rest) offset = passString rest (offset + 1) := by
  obtain ⟨hctrl, hquote, hslash⟩ := h
  have hctrl : ¬ b < 32 := UInt8.not_lt.mpr hctrl
  rw [passString.eq_def]
  split
  case h_7 =>
    rename_i heq
    cases heq
    exact if_neg hctrl
  all_goals simp_all

theorem keepString_plain {b : UInt8} (h : IsPlainByte b) (read rest : List UInt8)
    (offset : Nat) :
    keepString read (b :: rest) offset = keepString (b :: read) rest (offset + 1) := by
  obtain ⟨hctrl, hquote, hslash⟩ := h
  have hctrl : ¬ b < 32 := UInt8.not_lt.mpr hctrl
  rw [keepString.eq_def]
  split
  case h_7 =>
    rename_i heq
    cases heq
    exact if_neg hctrl
  all_goals simp_all

theorem passString_append {bs : List UInt8} (h : ∀ b ∈ bs, IsPlainByte b) (rest : List UInt8)
    (offset : Nat) :
    passString (bs ++ rest) offset = passString rest (offset + bs.length) := by
  induction bs generalizing offset with
  | nil => rfl
  | cons b bs ih =>
    obtain ⟨hb, hbs⟩ := List.forall_mem_cons.mp h
    rw [List.cons_append, passString_plain hb, ih hbs, List.length_cons, Nat.add_right_comm,
      Nat.add_assoc]

theorem keepString_append {bs : List UInt8} (h : ∀ b ∈ bs, IsPlainByte b)
    (read rest : List UInt8) (offset : Nat) :
    keepString read (bs ++ rest) offset =
      keepString (bs.reverse ++ read) rest (offset + bs.length) := by
  induction bs generalizing offset read with
  | nil => rfl
  | cons b bs ih =>
    obtain ⟨hb, hbs⟩ := List.forall_mem_cons.mp h
    rw [List.cons_append, keepString_plain hb, ih hbs, List.length_cons, Nat.add_right_comm,
      Nat.add_assoc, List.reverse_cons, List.append_assoc, List.singleton_append]

/-- A written character is passed over, whatever follows it. -/
theorem Writes.passString {c : Char} {bs : List UInt8} (h : Writes c bs) (rest : List UInt8)
    (offset : Nat) :
    passString (bs ++ rest) offset = passString rest (offset + bs.length) := by
  cases h with
  | plain hplain => exact passString_append hplain rest offset
  | letter hb hplain _ =>
    simp [Json.passString, hb, hplain]

/-- A written character is read as its bytes, whatever follows it. -/
theorem Writes.keepString {c : Char} {bs : List UInt8} (h : Writes c bs)
    (read rest : List UInt8) (offset : Nat) :
    keepString read (bs ++ rest) offset =
      keepString ((String.utf8EncodeChar c).reverse ++ read) rest (offset + bs.length) := by
  cases h with
  | plain hplain => exact keepString_append hplain read rest offset
  | letter hb hplain hc =>
    simp [Json.keepString, hb, hplain, hc]

end Json

end ApiSurface
