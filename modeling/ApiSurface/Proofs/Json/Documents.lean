import ApiSurface.Proofs.Json.Literal
import ApiSurface.Proofs.Json.Pages
import ApiSurface.Proofs.Reading.Kept

/-!
# Values that are read back

The compact text of a value is a page without blanks: its strings are written in pieces,
character by character, and its integers as numerals without fraction and exponent. So what
is kept of the document of that text is the value itself, unless a floating-point number in
it stands in the way.

## Main definitions

* `Value.WrittenAs`: written values that are read as a given value.

## Main results

* `exists_numeral`: integers as they are written.
* `Value.exists_written`: every value without floating-point numbers is written as
  some written value.
* `Document.ofBytes_render`: the document of a written value.
-/

namespace ApiSurface.Json

open Text

/-! ### Integers -/

/-- Digits with one more after them. -/
def Digits.concat (ds : Digits) (d : Fin 10) : Digits := ⟨ds.first, ds.later ++ [d]⟩

theorem Digits.chars_concat (ds : Digits) (d : Fin 10) :
    (ds.concat d).chars = ds.chars ++ [digitChar d] := by
  simp [chars, all, concat]

theorem Digits.digitsFrom_concat (ds : Digits) (d : Fin 10) :
    digitsFrom 0 (ds.concat d).values = digitsFrom 0 ds.values * 10 + d := by
  simp [digitsFrom, values, all, concat]

/-- A number is written in digits that denote it, without needless zeros. -/
theorem exists_digits (n : Nat) :
    ∃ ds : Digits, ds.chars = Nat.toDigits 10 n ∧ digitsFrom 0 ds.values = n ∧
    (ds.first = 0 → n = 0 ∧ ds.later = []) := by
  induction n using Nat.strongRecOn with
  | ind n ih =>
    by_cases hlt : n < 10
    · refine ⟨⟨⟨n, hlt⟩, []⟩, (Nat.toDigits_of_lt_base hlt).symm, ?_,
        fun h => ⟨congrArg Fin.val h, rfl⟩⟩
      exact Nat.zero_add n
    · obtain ⟨ds, hchars, hvalue, hzero⟩ := ih (n / 10) (by omega)
      have hmod : n % 10 < 10 := Nat.mod_lt n (by decide)
      refine ⟨ds.concat ⟨n % 10, hmod⟩, ?_, ?_, fun h => ?_⟩
      · rw [ds.chars_concat, hchars, Nat.toDigits_of_base_le (show 1 < 10 by decide)
          (Nat.le_of_not_lt hlt)]
        rfl
      · rw [ds.digitsFrom_concat, hvalue]
        exact Nat.div_add_mod' n 10
      · obtain ⟨hn, -⟩ := hzero h
        omega

/-- An integer of 64 bits is written as a numeral that denotes it. -/
theorem exists_numeral {i : Int} (h : IsWord i) :
    ∃ l : WrittenNumeral, l.chars = (toString i).toList ∧
      l.numeral.value = .ok (.integer i) := by
  obtain ⟨ds, hchars, hvalue, hzero⟩ := exists_digits i.natAbs
  let l : WrittenNumeral := ⟨decide (i < 0), ds, none, none, fun h => (hzero h).2⟩
  refine ⟨l, ?_,
    (Numeral.value_eq_integer_iff (List.cons_ne_nil _ _)).mpr ⟨rfl, rfl, ?_, h, ?_⟩⟩
  · simp only [l, WrittenNumeral.chars, hchars]
    cases i with
    | ofNat n => simp [Int.repr, fractionChars, exponentChars]
    | negSucc n => simp [Int.repr, fractionChars, exponentChars, Int.negSucc_lt_zero, Nat.repr]
  · simp only [Numeral.integer, l, WrittenNumeral.numeral, hvalue, decide_eq_true_eq]
    split <;> omega
  · rintro ⟨hnegative, rfl⟩
    cases hnegative

/-! ### Values -/

/-- Whether a value is written as some written value, and is what is kept of any tree
of that form. -/
def Value.WrittenAs (v : Value) (w : Written) : Prop :=
  w.chars = v.chars ∧ ∀ node : Node, node.Spells w → node.keep .unbounded = .ok v

/-- Whether an item is written without blanks around it. -/
def ItemWrittenAs (v : Value) (item : Margins × Written) : Prop :=
  item.1 = ⟨[], []⟩ ∧ v.WrittenAs item.2

/-- Whether a member is written without blanks in it. -/
def MemberWrittenAs (member : String × Value) (written : Lead × Written) : Prop :=
  ∃ pieces, written.1 = ⟨[], pieces, [], [], []⟩ ∧ stringChars pieces = renderString member.1 ∧
    spelled? pieces = some member.1 ∧ member.2.WrittenAs written.2

theorem writtenItems_eq {items : List Value} {written : List (Margins × Written)}
    (h : List.Forall₂ ItemWrittenAs items written) :
    writtenItems [','] written = itemChars items := by
  induction h with
  | nil => rfl
  | @cons v item _ _ hitem _ ih =>
    obtain ⟨margins, w⟩ := item
    obtain ⟨rfl, hchars, -⟩ := hitem
    simp [writtenItems, itemChars, gapChars, hchars, ih]

theorem writtenMembers_eq {members : List (String × Value)} {written : List (Lead × Written)}
    (h : List.Forall₂ MemberWrittenAs members written) :
    writtenMembers [','] written = memberChars members := by
  induction h with
  | nil => rfl
  | @cons member written _ _ hmember _ ih =>
    obtain ⟨key, v⟩ := member
    obtain ⟨lead, w⟩ := written
    obtain ⟨pieces, rfl, hkey, -, hchars, -⟩ := hmember
    simp [writtenMembers, memberChars, gapChars, hkey, hchars, ih]

/-- The members of an object are kept as they are written. -/
theorem Members.Match.keep {members : Members} {kept : List (String × Value)}
    {written : List (Lead × Written)} (hmatch : members.Match Node.Spells written)
    (h : List.Forall₂ MemberWrittenAs kept written) : members.keep .unbounded = .ok kept := by
  induction hmatch generalizing kept with
  | close =>
    cases h
    rfl
  | @member key _ _ value rest lead w written hkey hvalue _ ih =>
    obtain ⟨⟨name, v⟩, kept, ⟨pieces, rfl, -, hspelled, -, hkeep⟩, hrest, rfl⟩ :=
      List.forall₂_cons_right_iff.mp h
    simp [Members.keep, hkey.text_iff.mpr hspelled, hkeep value hvalue, ih hrest]

theorem Value.writtenAs_array {items : List Value} {written : List (Margins × Written)}
    (h : List.Forall₂ ItemWrittenAs items written) :
    (array items).WrittenAs (.array [] written) := by
  constructor
  · cases h with
    | nil => rfl
    | @cons v item _ _ hitem hrest =>
      obtain ⟨margins, w⟩ := item
      obtain ⟨rfl, hchars, -⟩ := hitem
      simp [Written.chars, Value.chars, writtenItems, gapChars, hchars, writtenItems_eq hrest]
  · intro node hnode
    cases hnode with
    | @array _ read nodes _ _ hnodes hall =>
      have hkeep : List.Forall₂ (fun node v => node.keep .unbounded = .ok v) nodes items :=
        Except.forall₂_trans (fun node item v hspells hitem => hitem.2.2 node hspells)
          hall h.flip
      simp [Node.keep, Depth.enter, read.keep_eq_ok_iff.mpr ⟨nodes, hnodes, hkeep⟩]

theorem Value.writtenAs_object {members : List (String × Value)}
    {written : List (Lead × Written)} (h : List.Forall₂ MemberWrittenAs members written) :
    (object members).WrittenAs (.object [] written) := by
  constructor
  · cases h with
    | nil => rfl
    | @cons member written _ _ hmember hrest =>
      obtain ⟨key, v⟩ := member
      obtain ⟨lead, w⟩ := written
      obtain ⟨pieces, rfl, hkey, -, hchars, -⟩ := hmember
      simp [Written.chars, Value.chars, writtenMembers, gapChars, hkey, hchars,
        writtenMembers_eq hrest]
  · intro node hnode
    cases hnode with
    | object hmatch => simp [Node.keep, Depth.enter, hmatch.keep h]

mutual
/-- **Values.** A value without floating-point numbers is written as some written value. -/
theorem Value.exists_written :
    (v : Value) → v.Everywhere Value.IsExact → v.Everywhere Value.IsOfWords →
    ∃ w, v.WrittenAs w
  | .null, _, _ => ⟨.null, rfl, fun _ h => by cases h; rfl⟩
  | .bool true, _, _ => ⟨.bool true, rfl, fun _ h => by cases h; rfl⟩
  | .bool false, _, _ => ⟨.bool false, rfl, fun _ h => by cases h; rfl⟩
  | .number (.integer i), _, words => by
    obtain ⟨l, hchars, hvalue⟩ := exists_numeral (Value.everywhere_number_iff.mp words)
    refine ⟨.number l, hchars, fun node hnode => ?_⟩
    cases hnode with
    | number hnumber =>
      rw [Node.keep, (Except.toOption_eq_iff.mp hnumber _).mpr hvalue, Except.map]
  | .number (.real _), exact, _ => (Value.everywhere_number_iff.mp exact).elim
  | .text s, _, _ => by
    obtain ⟨pieces, hchars, hspelled⟩ := exists_pieces s
    refine ⟨.text pieces, hchars, fun node hnode => ?_⟩
    cases hnode with
    | text hspells => rw [Node.keep, hspells.text_iff.mpr hspelled, Except.map]
  | .array items, exact, words => by
    obtain ⟨written, hwritten⟩ :=
      exists_writtenItems items (Value.everywhere_array_iff.mp exact).2
      (Value.everywhere_array_iff.mp words).2
    exact ⟨_, Value.writtenAs_array hwritten⟩
  | .object members, exact, words => by
    obtain ⟨written, hwritten⟩ :=
      exists_writtenMembers members (Value.everywhere_object_iff.mp exact).2
      (Value.everywhere_object_iff.mp words).2
    exact ⟨_, Value.writtenAs_object hwritten⟩

/-- The same for the items of an array. -/
theorem exists_writtenItems :
    (items : List Value) → (∀ item ∈ items, item.Everywhere Value.IsExact) →
    (∀ item ∈ items, item.Everywhere Value.IsOfWords) →
      ∃ written, List.Forall₂ ItemWrittenAs items written
  | [], _, _ => ⟨[], .nil⟩
  | item :: items, exact, words => by
    obtain ⟨hexact, hexacts⟩ := List.forall_mem_cons.mp exact
    obtain ⟨hwords, hallwords⟩ := List.forall_mem_cons.mp words
    obtain ⟨w, hw⟩ := item.exists_written hexact hwords
    obtain ⟨written, hwritten⟩ := exists_writtenItems items hexacts hallwords
    exact ⟨(⟨[], []⟩, w) :: written, .cons ⟨rfl, hw⟩ hwritten⟩

/-- The same for the members of an object. -/
theorem exists_writtenMembers : (members : List (String × Value)) →
    (∀ member ∈ members, member.2.Everywhere Value.IsExact) →
    (∀ member ∈ members, member.2.Everywhere Value.IsOfWords) →
    ∃ written, List.Forall₂ MemberWrittenAs members written
  | [], _, _ => ⟨[], .nil⟩
  | (key, value) :: members, exact, words => by
    obtain ⟨hexact, hexacts⟩ := List.forall_mem_cons.mp exact
    obtain ⟨hwords, hallwords⟩ := List.forall_mem_cons.mp words
    obtain ⟨pieces, hkey, hspelled⟩ := exists_pieces key
    obtain ⟨w, hw⟩ := value.exists_written hexact hwords
    obtain ⟨written, hwritten⟩ := exists_writtenMembers members hexacts hallwords
    exact ⟨(⟨[], pieces, [], [], []⟩, w) :: written,
      .cons ⟨pieces, rfl, hkey, hspelled, hw⟩ hwritten⟩
end

/-- **Documents.** The text of a value without floating-point numbers is a document of that
value, and nothing follows it. -/
theorem Document.ofBytes_render {v : Value} (exact : v.Everywhere Value.IsExact)
    (words : v.Everywhere Value.IsOfWords) :
    (Document.ofBytes (Text.bytes v.render)).root.keep .unbounded = .ok v ∧
      (Document.ofBytes (Text.bytes v.render)).surplus = none := by
  obtain ⟨w, hchars, hkeep⟩ := v.exists_written exact words
  let page : Page := ⟨[], w, []⟩
  have hbytes : Text.bytes v.render = page.bytes := by
    simp [page, Value.render, bytes_ofList, Page.bytes, gapChars, hchars]
  obtain ⟨hspells, hsurplus⟩ := page.document
  rw [hbytes]
  exact ⟨hkeep _ hspells, hsurplus⟩

end ApiSurface.Json
