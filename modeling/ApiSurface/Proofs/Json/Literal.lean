import ApiSurface.Proofs.Json.Sorted

/-!
# Texts that are kept to the letter

Two things in a text are not kept as they are written: a numeral that is read as a
floating-point number may be rounded, and an object with the embedding key is taken for the
text under it. A text that has neither is literal. What is kept of such a text has integers
only and embeds nothing.

## Main definitions

* `Node.IsLiteral`: nodes without floating-point numbers and without the embedding key.
* `Numeral.integer`: the integer that the sign and the digits of a numeral denote.

## Main results

* `Numeral.value_eq_integer_iff`: the numerals that are read as integers.
* `Node.isLiteral_of_keep`: what is kept of a literal node.
-/

namespace ApiSurface.Json

/-! ### Numerals of integers -/

/-- The number that digits denote after those that denote a number. -/
def digitsFrom (n : Nat) (digits : List Nat) : Nat := digits.foldl (fun n d => n * 10 + d) n

/-- The integer that the sign and the digits before the point denote. -/
def Numeral.integer (l : Numeral) : Int :=
  if l.negative then -(digitsFrom 0 l.whole) else digitsFrom 0 l.whole

theorem le_digitsFrom (n : Nat) (digits : List Nat) : n ≤ digitsFrom n digits := by
  induction digits generalizing n with
  | nil => exact Nat.le_refl n
  | cons d digits ih =>
    have hlater := ih (n * 10 + d)
    rw [digitsFrom, List.foldl_cons]
    rw [digitsFrom] at hlater
    omega

/-- All digits are taken exactly if the number that they denote fits a word, and then
they denote it. -/
theorem absorb_digitsFrom (n : Nat) (digits : List Nat) :
    ((Decimal.absorb n digits).2 = digits.length ↔
      digits = [] ∨ digitsFrom n digits ≤ Decimal.maxWord) ∧
      ((Decimal.absorb n digits).2 = digits.length →
        (Decimal.absorb n digits).1 = digitsFrom n digits) := by
  induction digits generalizing n with
  | nil => exact ⟨iff_of_true rfl (.inl rfl), fun _ => rfl⟩
  | cons d digits ih =>
    obtain ⟨htaken, hvalue⟩ := ih (n * 10 + d)
    have hle := le_digitsFrom (n * 10 + d) digits
    have hstep : digitsFrom n (d :: digits) = digitsFrom (n * 10 + d) digits := rfl
    rw [Decimal.absorb, hstep]
    split
    case isTrue hfits =>
      simp only [List.length_cons, Nat.add_right_cancel_iff, reduceCtorEq, false_or]
      refine ⟨htaken.trans ⟨?_, .inr⟩, hvalue⟩
      rintro (rfl | hbound)
      · exact hfits
      · exact hbound
    case isFalse hlarge =>
      have hnone : (0 : Nat) ≠ (d :: digits).length := by simp
      refine ⟨iff_of_false hnone ?_, fun h => absurd h hnone⟩
      rintro (h | hbound)
      · cases h
      · omega

/-- No more digits are taken than there are. -/
theorem absorb_count_le (n : Nat) (digits : List Nat) :
    (Decimal.absorb n digits).2 ≤ digits.length := by
  induction digits generalizing n with
  | nil => exact Nat.le_refl 0
  | cons d digits ih =>
    rw [Decimal.absorb]
    split
    · exact Nat.succ_le_succ (ih _)
    · exact Nat.zero_le _

/-- A sign and a magnitude are an integer if it is not negative zero and not below the least
signed word. -/
theorem integral_eq_integer_iff {negative : Bool} {n : Nat} {i : Int} :
    integral negative n = .integer i ↔
      (if negative then -(n : Int) else n) = i ∧
      (negative → n ≠ 0 ∧ n ≤ 9223372036854775808) := by
  cases negative with
  | false => simp [integral]
  | true =>
    rw [integral, if_pos rfl, if_pos rfl]
    split
    case isTrue hreal =>
      simp only [Bool.or_eq_true, decide_eq_true_eq] at hreal
      constructor
      · nofun
      · rintro ⟨-, hfits⟩
        have hbound := hfits rfl
        omega
    case isFalse hreal =>
      simp only [Bool.or_eq_true, decide_eq_true_eq, not_or] at hreal
      simp only [Number.integer.injEq, forall_const]
      exact (and_iff_left ⟨hreal.1, by omega⟩).symm

/-- A numeral with a fraction or an exponent is never read as an integer. -/
theorem Numeral.plain_of_value {l : Numeral} {i : Int} (h : l.value = .ok (.integer i)) :
    l.fraction = none ∧ l.exponent = none := by
  unfold Numeral.value at h
  dsimp only at h
  split at h
  · next hfraction hexponent => exact ⟨hfraction, hexponent⟩
  · split at h
    · exact absurd h scaled_ne_integer
    · split at h
      · exact absurd h scaled_ne_integer
      · split at h <;> simp [signed] at h

/-- **Integers of a text.** A numeral is read as an integer exactly if it has neither a
fraction nor an exponent, and denotes an integer of at most 64 bits, signed or unsigned,
other than negative zero. -/
theorem Numeral.value_eq_integer_iff {l : Numeral} {i : Int} (digits : l.whole ≠ []) :
    l.value = .ok (.integer i) ↔
      l.fraction = none ∧ l.exponent = none ∧ l.integer = i ∧ IsWord i ∧
      ¬ (l.negative ∧ i = 0) := by
  suffices hplain : l.fraction = none → l.exponent = none →
      (l.value = .ok (.integer i) ↔ l.integer = i ∧ IsWord i ∧ ¬ (l.negative ∧ i = 0)) by
    constructor
    · intro h
      obtain ⟨hfraction, hexponent⟩ := plain_of_value h
      exact ⟨hfraction, hexponent, (hplain hfraction hexponent).mp h⟩
    · rintro ⟨hfraction, hexponent, h⟩
      exact (hplain hfraction hexponent).mpr h
  obtain ⟨negative, whole, fraction, exponent⟩ := l
  rintro rfl rfl
  obtain ⟨htaken, hvalue⟩ := absorb_digitsFrom 0 whole
  have hcount := absorb_count_le 0 whole
  simp only [show whole ≠ [] from digits, false_or] at htaken
  rw [Decimal.maxWord] at htaken
  simp only [Numeral.value, Numeral.integer, IsWord, Decimal.maxWord]
  split
  case isTrue hdropped =>
    have hall : (Decimal.absorb 0 whole).2 = whole.length := by omega
    have hbound := htaken.mp hall
    rw [hvalue hall, Except.ok.injEq, integral_eq_integer_iff]
    cases negative with
    | false =>
      simp only [Bool.false_eq_true, if_false, false_and, not_false_eq_true, and_true,
        IsEmpty.forall_iff]
      omega
    | true =>
      simp only [if_true, true_and, forall_const]
      omega
  case isFalse hdropped =>
    have hlarge : ¬ digitsFrom 0 whole ≤ 18446744073709551615 := fun hbound =>
      hdropped (by rw [htaken.mpr hbound, Nat.sub_self])
    refine iff_of_false scaled_ne_integer ?_
    rintro ⟨rfl, ⟨hlow, hhigh⟩, -⟩
    cases negative with
    | false =>
      simp only [Bool.false_eq_true, if_false] at hhigh
      omega
    | true =>
      simp only [if_true] at hlow
      omega

/-! ### Literal nodes -/

mutual
/-- Whether a node is kept to the letter: no number of it is read as a floating-point
number, and no object of it has the embedding key. -/
def Node.IsLiteral : Node → Prop
  | .number _ value _ => ∀ x, value ≠ .ok (.real x)
  | .array _ items => items.AreLiteral
  | .object _ members => members.AreLiteral
  | _ => True

/-- Whether some items are kept to the letter. -/
def Items.AreLiteral : Items → Prop
  | .item _ value rest => value.IsLiteral ∧ rest.AreLiteral
  | _ => True

/-- Whether some members are kept to the letter. -/
def Members.AreLiteral : Members → Prop
  | .member key _ value _ rest =>
    key.text ≠ .ok embeddingKey ∧ value.IsLiteral ∧ rest.AreLiteral
  | _ => True
end

mutual
/-- It can be found out whether a node is literal. -/
def Node.decideLiteral : (node : Node) → Decidable node.IsLiteral
  | .number _ (.ok (.real x)) _ => isFalse fun h => h x rfl
  | .number _ (.ok (.integer _)) _ | .number _ (.error _) _ => isTrue nofun
  | .array _ items => items.decideLiteral
  | .object _ members => members.decideLiteral
  | .null _ | .bool _ _ | .text _ | .broken _ _ | .brokenText _ | .missing _ => isTrue trivial

/-- It can be found out whether items are literal. -/
def Items.decideLiteral : (items : Items) → Decidable items.AreLiteral
  | .item _ value rest =>
    have := value.decideLiteral
    have := rest.decideLiteral
    inferInstanceAs (Decidable (value.IsLiteral ∧ rest.AreLiteral))
  | .close _ | .trailing _ | .stray _ | .ended _ => isTrue trivial

/-- It can be found out whether members are literal. -/
def Members.decideLiteral : (members : Members) → Decidable members.AreLiteral
  | .member key _ value _ rest =>
    have := value.decideLiteral
    have := rest.decideLiteral
    inferInstanceAs (Decidable (key.text ≠ .ok embeddingKey ∧ value.IsLiteral ∧
      rest.AreLiteral))
  | .close _ | .halted _ _ _ | .badKey _ | .noKey _ | .trailing _ | .unfinished _ | .stray _
  | .ended _ =>
    isTrue trivial
end

instance : DecidablePred Node.IsLiteral := Node.decideLiteral

/-- The items of a literal array are literal. -/
theorem Items.isLiteral_of_nodes {items : Items} (literal : items.AreLiteral)
    {nodes : List Node} (h : items.nodes? = some nodes) : ∀ node ∈ nodes, node.IsLiteral :=
  Items.forall_of_nodes (fun literal => literal) literal h

/-- The members of a literal object have other keys than the embedding key, and
literal values. -/
theorem Members.isLiteral_of_entries {members : Members} (literal : members.AreLiteral)
    {entries : List (String × Node)} (h : members.entries? = some entries) :
    ∀ entry ∈ entries, entry.1 ≠ embeddingKey ∧ entry.2.IsLiteral := by
  refine Members.forall_of_entries (Q := Members.AreLiteral) ?_ literal h
  rintro key pause value after rest name hname ⟨hkey, hvalue, hrest⟩
  refine ⟨⟨?_, hvalue⟩, hrest⟩
  rintro rfl
  exact hkey hname

/-! ### What is kept -/

/-- Whether a part of a value is neither a floating-point number nor an object that
embeds a text. -/
def Value.IsLiteral (v : Value) : Prop := v.IsExact ∧ v.Lacks embeddingKey

/-- **Keeping.** What is kept of a literal node has integers only, and embeds nothing. -/
theorem Node.isLiteral_of_keep {depth : Depth} {node : Node} (literal : node.IsLiteral)
    {v : Value} (h : node.keep depth = .ok v) : v.Everywhere Value.IsLiteral := by
  refine Node.everywhere_of_keep ⟨fun literal => Items.isLiteral_of_nodes literal,
      fun literal hentries entry hentry =>
    (Members.isLiteral_of_entries literal hentries entry hentry).2⟩ ?_ literal h
  intro depth node v literal h
  cases v with
  | number n =>
    obtain ⟨start, stop, rfl⟩ := Node.hasForm_of_keep h
    cases n with
    | integer i => exact ⟨trivial, trivial⟩
    | real x => exact absurd rfl (literal x)
  | object kept =>
    obtain ⟨start, members, inner, entries, rfl, -, hentries, hkept⟩ := Node.hasForm_of_keep h
    refine ⟨trivial, fun member hmember => ?_⟩
    obtain ⟨entry, hentry, hkey, -⟩ := Except.exists_of_forall₂ hkept hmember
    exact hkey ▸ (Members.isLiteral_of_entries literal hentries entry hentry).1
  | _ => exact ⟨trivial, trivial⟩

end ApiSurface.Json
