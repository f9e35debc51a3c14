import ApiSurface.Json.Value
import ApiSurface.Proofs.Json.NumberTexts
import ApiSurface.Proofs.Json.Spelled

/-!
# Values are told by their texts

Different values have different texts. The first character of a value tells which kind of
value it is. A string, an array and an object tell by themselves where they end, and a
numeral ends before the first character that occurs in no numeral, of which one follows
wherever a value stands in another one. So a value that other text follows can be told from
that text, and what follows is known as well.

## Main definitions

* `EndsValue`: texts that can follow a value.
* `Kind`, `kindOf`: what a value is, by its first character.

## Main results

* `renderString_cancel`: strings before other text.
* `Value.chars_cancel`: values before other text.
* `Value.render_injective`: different values are written differently.
-/

namespace ApiSurface.Json

open Decimal Text

/-! ### Where a value ends -/

/-- Whether a text ends, or begins with a character that occurs in no numeral. -/
def EndsValue (rest : List Char) : Prop := ∀ c ∈ rest.head?, ¬ IsNumeric c

theorem endsValue_nil : EndsValue [] := nofun

/-- A comma or a closing bracket occurs in no numeral. -/
theorem endsValue_cons {c : Char} (h : c ∈ [',', ']', '\x7d']) (rest : List Char) :
    EndsValue (c :: rest) := by
  have hother : ∀ c ∈ [',', ']', '\x7d'], ¬ IsNumeric c := by simp [IsNumeric]
  rintro d ⟨⟩
  exact hother c h

/-- Characters that are those of numerals are told from a text that begins with another one. -/
theorem numeric_cancel {cs cs' rest rest' : List Char} (hcs : ∀ c ∈ cs, IsNumeric c)
    (hcs' : ∀ c ∈ cs', IsNumeric c) (hrest : EndsValue rest) (hrest' : EndsValue rest')
    (h : cs ++ rest = cs' ++ rest') : cs = cs' ∧ rest = rest' := by
  induction cs generalizing cs' with
  | nil =>
    cases cs' with
    | nil => exact ⟨rfl, h⟩
    | cons c' cs' =>
      rw [List.nil_append] at h
      rw [h] at hrest
      exact absurd (hcs' c' List.mem_cons_self) (hrest c' rfl)
  | cons c cs ih =>
    obtain ⟨hc, hcs⟩ := List.forall_mem_cons.mp hcs
    cases cs' with
    | nil =>
      rw [List.nil_append] at h
      rw [← h] at hrest'
      exact absurd hc (hrest' c rfl)
    | cons c' cs' =>
      obtain ⟨rfl, htail⟩ := List.cons.inj h
      obtain ⟨rfl, rfl⟩ := ih hcs (List.forall_mem_cons.mp hcs').2 htail
      exact ⟨rfl, rfl⟩

/-! ### Strings -/

/-- A string is told from the text that follows it. -/
theorem renderString_cancel {s s' : String} {rest rest' : List Char}
    (h : renderString s ++ rest = renderString s' ++ rest') : s = s' ∧ rest = rest' := by
  have hread (s : String) (rest : List Char) :
      (keepString [] (encode (renderString s ++ rest)).tail 0).toOption.map Prod.fst =
        some (bytes s) := by
    obtain ⟨pieces, hchars, hspelled⟩ := exists_pieces s
    obtain ⟨cs, hcs, rfl⟩ := Option.map_eq_some_iff.mp hspelled
    have hkept := (keepString_pieces pieces).1 [] (encode rest) 0
    rw [hcs, Option.map_some, List.reverse_nil, List.nil_append] at hkept
    rw [← hchars, encode_append, encode_stringChars, List.append_assoc, bytes_ofList]
    exact hkept
  have hs := hread s rest
  rw [h, hread s' rest'] at hs
  have hbytes : bytes s' = bytes s := Option.some.inj hs
  have heq : some s' = some s := by rw [← ofBytes?_bytes s', ← ofBytes?_bytes s, hbytes]
  obtain rfl := Option.some.inj heq
  exact ⟨rfl, List.append_cancel_left h⟩

/-! ### The first character -/

/-- What a value is, as far as its first character tells. -/
inductive Kind
  | null
  | bool (b : Bool)
  | number
  | text
  | array
  | object

/-- What a value is that begins with a character, if one does. -/
def kindOf (c : Char) : Option Kind :=
  match c with
  | 'n' => some .null
  | 't' => some (.bool true)
  | 'f' => some (.bool false)
  | '"' => some .text
  | '[' => some .array
  | '\x7b' => some .object
  | c => if c = '-' || c.isDigit then some .number else none

/-- What a value is. -/
def Value.kind : Value → Kind
  | .null => .null
  | .bool b => .bool b
  | .number _ => .number
  | .text _ => .text
  | .array _ => .array
  | .object _ => .object

/-- A digit begins a numeral. -/
theorem kindOf_digit {c : Char} (h : c.isDigit) : kindOf c = some .number := by
  unfold kindOf
  split
  case h_7 => rw [h, Bool.or_true, if_pos rfl]
  all_goals cases h

/-- The first character of a value tells what it is. -/
theorem Value.begins (v : Value) : ∃ c cs, v.chars = c :: cs ∧ kindOf c = some v.kind := by
  match v with
  | .null | .bool true | .bool false | .text _ | .array [] | .array (_ :: _) | .object []
  | .object ((_, _) :: _) => exact ⟨_, _, rfl, rfl⟩
  | .number n =>
    obtain ⟨c, rest, hbody, hdigit⟩ := n.body_begins
    rw [Value.chars, n.render_toList, signedChars]
    split
    · exact ⟨'-', n.body, rfl, rfl⟩
    · exact ⟨c, rest, hbody, kindOf_digit hdigit⟩

/-- Values before other text are of one kind if the texts are the same. -/
theorem Value.kind_eq {v w : Value} {rest rest' : List Char}
    (h : v.chars ++ rest = w.chars ++ rest') : v.kind = w.kind := by
  obtain ⟨c, cs, hv, hc⟩ := v.begins
  obtain ⟨c', cs', hw, hc'⟩ := w.begins
  rw [hv, hw] at h
  obtain ⟨rfl, -⟩ := List.cons.inj h
  exact Option.some.inj (hc.symm.trans hc')

/-- No value begins with a closing bracket. -/
theorem Value.chars_ne {v : Value} {c : Char} (h : kindOf c = none) (rest rest' : List Char) :
    v.chars ++ rest ≠ c :: rest' := by
  obtain ⟨d, cs, hv, hd⟩ := v.begins
  rw [hv]
  intro heq
  obtain ⟨rfl, -⟩ := List.cons.inj heq
  rw [h] at hd
  cases hd

/-! ### Values -/

theorem endsValue_itemChars (items : List Value) (rest : List Char) :
    EndsValue (itemChars items ++ rest) := by
  cases items with
  | nil => exact endsValue_cons (by decide) _
  | cons item items => exact endsValue_cons (by decide) _

theorem endsValue_memberChars (members : List (String × Value)) (rest : List Char) :
    EndsValue (memberChars members ++ rest) := by
  cases members with
  | nil => exact endsValue_cons (by decide) _
  | cons member members => exact endsValue_cons (by decide) _

mutual
/-- **Values.** A value is told from the text that follows it. -/
theorem Value.chars_cancel :
    (v w : Value) → {rest rest' : List Char} → EndsValue rest → EndsValue rest' →
    v.chars ++ rest = w.chars ++ rest' → v = w ∧ rest = rest'
  | .null, w, rest, rest', _, _, h => by
    have hkind := Value.kind_eq h
    cases w with
    | null => exact ⟨rfl, List.append_cancel_left h⟩
    | _ => cases hkind
  | .bool b, w, rest, rest', _, _, h => by
    have hkind := Value.kind_eq h
    cases w with
    | bool b' =>
      cases hkind
      exact ⟨rfl, List.append_cancel_left h⟩
    | _ => cases hkind
  | .number n, w, rest, rest', hrest, hrest', h => by
    have hkind := Value.kind_eq h
    cases w with
    | number n' =>
      obtain ⟨hchars, hafter⟩ :=
        numeric_cancel n.numeric_render n'.numeric_render hrest hrest' h
      exact
        ⟨congrArg Value.number (Number.render_injective (String.toList_inj.mp hchars)), hafter⟩
    | _ => cases hkind
  | .text s, w, rest, rest', _, _, h => by
    have hkind := Value.kind_eq h
    cases w with
    | text s' =>
      obtain ⟨rfl, rfl⟩ := renderString_cancel h
      exact ⟨rfl, rfl⟩
    | _ => cases hkind
  | .array [], w, rest, rest', _, _, h => by
    have hkind := Value.kind_eq h
    cases w with
    | array items =>
      cases items with
      | nil => exact ⟨rfl, List.append_cancel_left h⟩
      | cons item items =>
        simp only [Value.chars, List.cons_append, List.cons.injEq, true_and,
          List.append_assoc] at h
        exact absurd h.symm (Value.chars_ne rfl _ _)
    | _ => cases hkind
  | .array (item :: items), w, rest, rest', _, _, h => by
    have hkind := Value.kind_eq h
    cases w with
    | array items' =>
      cases items' with
      | nil =>
        simp only [Value.chars, List.cons_append, List.cons.injEq, true_and,
          List.append_assoc] at h
        exact absurd h (Value.chars_ne rfl _ _)
      | cons item' items' =>
        simp only [Value.chars, List.cons_append, List.cons.injEq, true_and,
          List.append_assoc] at h
        obtain ⟨rfl, hitems⟩ :=
          item.chars_cancel item' (endsValue_itemChars items rest)
            (endsValue_itemChars items' rest') h
        obtain ⟨rfl, rfl⟩ := itemChars_cancel items items' hitems
        exact ⟨rfl, rfl⟩
    | _ => cases hkind
  | .object [], w, rest, rest', _, _, h => by
    have hkind := Value.kind_eq h
    cases w with
    | object members =>
      cases members with
      | nil => exact ⟨rfl, List.append_cancel_left h⟩
      | cons member members =>
        simp [Value.chars, renderString] at h
    | _ => cases hkind
  | .object ((key, value) :: members), w, rest, rest', _, _, h => by
    have hkind := Value.kind_eq h
    cases w with
    | object members' =>
      cases members' with
      | nil => simp [Value.chars, renderString] at h
      | cons member members' =>
        obtain ⟨key', value'⟩ := member
        simp only [Value.chars, List.cons_append, List.cons.injEq, true_and,
          List.append_assoc] at h
        obtain ⟨rfl, hafter⟩ := renderString_cancel h
        obtain ⟨rfl, hmembers⟩ :=
          value.chars_cancel value' (endsValue_memberChars members rest)
          (endsValue_memberChars members' rest') (List.cons.inj hafter).2
        obtain ⟨rfl, rfl⟩ := memberChars_cancel members members' hmembers
        exact ⟨rfl, rfl⟩
    | _ => cases hkind

/-- The same for the later items of an array. -/
theorem itemChars_cancel : (items items' : List Value) → {rest rest' : List Char} →
    itemChars items ++ rest = itemChars items' ++ rest' → items = items' ∧ rest = rest'
  | [], [], _, _, h => ⟨rfl, (List.cons.inj h).2⟩
  | [], _ :: _, _, _, h => by simp [itemChars] at h
  | _ :: _, [], _, _, h => by simp [itemChars] at h
  | item :: items, item' :: items', rest, rest', h => by
    simp only [itemChars, List.cons_append, List.cons.injEq, true_and, List.append_assoc] at h
    obtain ⟨rfl, hitems⟩ :=
      item.chars_cancel item' (endsValue_itemChars items rest)
        (endsValue_itemChars items' rest') h
    obtain ⟨rfl, rfl⟩ := itemChars_cancel items items' hitems
    exact ⟨rfl, rfl⟩

/-- The same for the later members of an object. -/
theorem memberChars_cancel :
    (members members' : List (String × Value)) → {rest rest' : List Char} →
    memberChars members ++ rest = memberChars members' ++ rest' → members = members' ∧
    rest = rest'
  | [], [], _, _, h => ⟨rfl, (List.cons.inj h).2⟩
  | [], _ :: _, _, _, h => by simp [memberChars] at h
  | _ :: _, [], _, _, h => by simp [memberChars] at h
  | (key, value) :: members, (key', value') :: members', rest, rest', h => by
    simp only [memberChars, List.cons_append, List.cons.injEq, true_and,
      List.append_assoc] at h
    obtain ⟨rfl, hafter⟩ := renderString_cancel h
    obtain ⟨rfl, hmembers⟩ := value.chars_cancel value' (endsValue_memberChars members rest)
      (endsValue_memberChars members' rest') (List.cons.inj hafter).2
    obtain ⟨rfl, rfl⟩ := memberChars_cancel members members' hmembers
    exact ⟨rfl, rfl⟩
end

/-- **Texts of values.** Different values are written differently. -/
theorem Value.render_injective {v w : Value} (h : v.render = w.render) : v = w := by
  have hchars : v.chars ++ [] = w.chars ++ [] := by
    rw [List.append_nil, List.append_nil]
    exact String.ofList_injective h
  exact (v.chars_cancel w endsValue_nil endsValue_nil hchars).1

end ApiSurface.Json
