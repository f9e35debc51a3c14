import ApiSurface.Proofs.Results
import ApiSurface.Session.Configure
import Mathlib.Algebra.GroupWithZero.Nat
import Mathlib.Data.List.TakeWhile

/-!
# What variables spell

A variable of the environment holds a text. Blanks around it do not count; what is between
them has to be the name of a way of decoding, in capitals or not, or a number of 64 bits in
decimal digits, before which a plus sign may stand. The predicates of this module say so
without trimming and without reading digit by digit, and the readers accept exactly the
texts that they hold of.

## Main definitions

* `Text.Pads`: a text that is some characters with blanks around them.
* `SpellsPreference`, `SpellsCount`: texts that spell a preference or a number.

## Main results

* `Preference.ofText_eq_ok_iff`, `parseCount_eq_ok_iff`: what is read from a text is
  what it spells.
-/

namespace ApiSurface

/-! ### Blanks -/

namespace Text

/-- Whether a text is some characters with blanks around them. -/
def Pads (core : List Char) (s : String) : Prop :=
  ∃ before after, s.toList = before ++ core ++ after ∧ (∀ c ∈ before, isBlank c = true) ∧
    ∀ c ∈ after, isBlank c = true

variable {s : String} {core : List Char}

/-- A text is its trimmed characters with blanks around them. -/
theorem pads_trimmed (s : String) : Pads (trimmed s.toList) s := by
  refine ⟨s.toList.takeWhile isBlank,
    ((s.toList.dropWhile isBlank).reverse.takeWhile isBlank).reverse, ?_, ?_, ?_⟩
  · rw [trimmed, List.append_assoc, ← List.reverse_append, List.takeWhile_append_dropWhile,
      List.reverse_reverse, List.takeWhile_append_dropWhile]
  · exact fun c hc => List.mem_takeWhile_imp hc
  · exact fun c hc => List.mem_takeWhile_imp (List.mem_reverse.mp hc)

/-- Characters that are not blank are kept when blanks in front are dropped. -/
theorem dropWhile_of_solid {cs : List Char} (solid : ∀ c ∈ cs, isBlank c = false) :
    cs.dropWhile isBlank = cs := by
  cases cs with
  | nil => rfl
  | cons c cs => rw [List.dropWhile_cons, solid c List.mem_cons_self]; rfl

/-- Blanks around characters that are none are what trimming removes. -/
theorem trimmed_eq_of_pads (h : Pads core s) (solid : ∀ c ∈ core, isBlank c = false) :
    trimmed s.toList = core := by
  obtain ⟨before, after, hs, hbefore, hafter⟩ := h
  have hafter' : ∀ c ∈ after.reverse, isBlank c = true :=
    fun c hc => hafter c (List.mem_reverse.mp hc)
  have hcore' : core.reverse.dropWhile isBlank = core.reverse :=
    dropWhile_of_solid fun c hc => solid c (List.mem_reverse.mp hc)
  rw [trimmed, hs, List.append_assoc, List.dropWhile_append_of_pos hbefore]
  cases core with
  | nil =>
    rw [List.nil_append, List.dropWhile_eq_nil_iff.mpr hafter]
    rfl
  | cons c rest =>
    rw [List.cons_append, List.dropWhile_cons, solid c List.mem_cons_self,
      if_neg Bool.false_ne_true, ← List.cons_append, List.reverse_append,
      List.dropWhile_append_of_pos hafter', hcore', List.reverse_reverse]

/-- A visible character of ASCII is not blank. -/
theorem isBlank_of_visible {c : Char} (h : 33 ≤ c.toNat ∧ c.toNat ≤ 126) :
    isBlank c = false := by
  have hval : c.val.toNat = c.toNat := rfl
  simp only [isBlank, blankRanges, List.any_cons, List.any_nil, Char.le_def,
    UInt32.le_iff_toNat_le]
  simp
  omega

/-- A capital is not blank, nor is the small letter for it. -/
theorem isBlank_toLower (c : Char) : isBlank c.toLower = isBlank c := by
  by_cases h : c.val ≥ 'A'.val ∧ c.val ≤ 'Z'.val
  · have hcapital : 65 ≤ c.toNat ∧ c.toNat ≤ 90 := h
    have hsmall : c.toLower.toNat = c.toNat + 32 := by
      have hsum : (c.val + 32).toNat = c.toNat + 32 := by
        rw [UInt32.toNat_add]
        exact Nat.mod_eq_of_lt (by change c.toNat + 32 < _; omega)
      exact (congrArg Char.toNat (dif_pos h)).trans hsum
    rw [isBlank_of_visible (by omega), isBlank_of_visible (by omega)]
  · exact congrArg isBlank (dif_neg h)

end Text

/-! ### Names of preferences -/

/-- Whether a text spells a preference: its name, with blanks around it, and capitals
in it or not. -/
def SpellsPreference (s : String) (preference : Preference) : Prop :=
  ∃ core, Text.Pads core s ∧ core.map Char.toLower = preference.name.toList

/-- The preferences are told by their names. -/
theorem Preference.lookup_byName_iff {given : String} {preference : Preference} :
    byName.lookup given = some preference ↔ given = preference.name := by
  constructor
  · intro h
    obtain ⟨before, after, happend, -⟩ := List.lookup_eq_some_iff.mp h
    have hmem : (given, preference) ∈ byName :=
      happend ▸ List.mem_append_right _ List.mem_cons_self
    simp only [byName, List.mem_cons, Prod.mk.injEq, List.not_mem_nil, or_false] at hmem
    rcases hmem with ⟨rfl, rfl⟩ | ⟨rfl, rfl⟩ | ⟨rfl, rfl⟩ <;> rfl
  · rintro rfl
    cases preference <;> decide

/-- No character in the name of a preference is blank. -/
theorem Preference.name_solid (preference : Preference) :
    ∀ c ∈ preference.name.toList, Text.isBlank c = false := by
  have hsolid : (preference.name.toList.all fun c => !Text.isBlank c) = true := by
    cases preference <;> decide
  intro c hc
  simpa using List.all_eq_true.mp hsolid c hc

/-- **Preferences.** A text is read as the preference that it spells. -/
theorem Preference.ofText_eq_ok_iff {s : String} {preference : Preference} :
    Preference.ofText s = .ok preference ↔ SpellsPreference s preference := by
  have hread : Preference.ofText s = .ok preference ↔
      (Text.trimmed s.toList).map Char.toLower = preference.name.toList := by
    rw [Preference.ofText, ← String.ofList_inj, String.ofList_toList, ← lookup_byName_iff,
      Text.lowerAscii, Text.trim, String.toList_ofList]
    cases byName.lookup (String.ofList ((Text.trimmed s.toList).map Char.toLower)) <;> simp
  rw [hread]
  constructor
  · exact fun h => ⟨Text.trimmed s.toList, Text.pads_trimmed s, h⟩
  · rintro ⟨core, hpads, hname⟩
    rw [Text.trimmed_eq_of_pads hpads ?_, hname]
    intro c hc
    rw [← Text.isBlank_toLower]
    exact preference.name_solid _ (hname ▸ List.mem_map_of_mem hc)

/-! ### Numbers -/

/-- Whether a text spells a number of 64 bits: decimal digits, before which a plus sign may
stand, with blanks around them. -/
def SpellsCount (s : String) (n : Nat) : Prop :=
  ∃ sign digits, (sign = [] ∨ sign = ['+']) ∧ digits ≠ [] ∧ (∀ c ∈ digits, c.isDigit = true) ∧
    Text.Pads (sign ++ digits) s ∧ Nat.ofDigitChars 10 digits 0 = n ∧ n < 2 ^ 64

/-- Further digits never make a number less. -/
theorem le_ofDigitChars (digits : List Char) (n : Nat) : n ≤ Nat.ofDigitChars 10 digits n := by
  induction digits generalizing n with
  | nil => exact Nat.le_refl n
  | cons c digits ih =>
    have := ih (10 * n + (c.toNat - '0'.toNat))
    rw [Nat.ofDigitChars_cons]
    omega

/-- Digits are read as the number they make, if it has at most 64 bits. -/
theorem countFrom_eq_ok_iff {digits : List Char} {n m : Nat} (hn : n < countBound) :
    countFrom n digits = .ok m ↔
      (∀ c ∈ digits, c.isDigit = true) ∧ Nat.ofDigitChars 10 digits n = m ∧
        m < countBound := by
  induction digits generalizing n with
  | nil =>
    simp only [countFrom, Except.ok.injEq, Nat.ofDigitChars_nil]
    constructor
    · rintro rfl
      exact ⟨nofun, rfl, hn⟩
    · exact fun h => h.2.1
  | cons c digits ih =>
    rw [countFrom, List.forall_mem_cons, Nat.ofDigitChars_cons, Nat.mul_comm 10 n]
    split
    · next hc =>
      dsimp only
      split
      · next hlt => rw [ih hlt, and_iff_right hc]
      · next hge =>
        have := le_ofDigitChars digits (n * 10 + (c.toNat - '0'.toNat))
        refine iff_of_false nofun ?_
        rintro ⟨-, rfl, hm⟩
        omega
    · next hc => exact iff_of_false nofun fun h => hc h.1.1

/-- A plus sign is no digit. -/
theorem not_isDigit_plus : ¬ '+'.isDigit = true := by decide

/-- Characters are read as the number that their digits make, after a plus sign if
there is one. -/
theorem countOf_eq_ok_iff {cs : List Char} {n : Nat} :
    countOf cs = .ok n ↔ ∃ sign digits, (sign = [] ∨ sign = ['+']) ∧ digits ≠ [] ∧
      (∀ c ∈ digits, c.isDigit = true) ∧ cs = sign ++ digits ∧
        Nat.ofDigitChars 10 digits 0 = n ∧ n < countBound := by
  have hzero : 0 < countBound := by decide
  constructor
  · intro h
    rw [countOf.eq_def] at h
    split at h
    · cases h
    · cases h
    · next digits hne =>
      obtain ⟨hdigits, hn⟩ := (countFrom_eq_ok_iff hzero).mp h
      exact ⟨['+'], digits, .inr rfl, fun hnil => hne (by rw [hnil]), hdigits, rfl, hn⟩
    · next hnil _ _ =>
      obtain ⟨hdigits, hn⟩ := (countFrom_eq_ok_iff hzero).mp h
      exact ⟨[], cs, .inl rfl, hnil, hdigits, rfl, hn⟩
  · rintro ⟨sign, digits, hsign, hne, hdigits, rfl, hn⟩
    obtain ⟨d, rest, rfl⟩ := List.exists_cons_of_ne_nil hne
    have hread := (countFrom_eq_ok_iff hzero).mpr ⟨hdigits, hn⟩
    rcases hsign with rfl | rfl
    · have hplus : d ≠ '+' := by
        rintro rfl
        exact not_isDigit_plus (hdigits '+' List.mem_cons_self)
      rw [List.nil_append, countOf.eq_def]
      split
      · next h => cases h
      · next h => exact absurd (List.cons.inj h).1 hplus
      · next h => exact absurd (List.cons.inj h).1 hplus
      · exact hread
    · exact hread

/-- **Numbers.** A text is read as the number of 64 bits that it spells. -/
theorem parseCount_eq_ok_iff {s : String} {w : UInt64} :
    parseCount s = .ok w ↔ SpellsCount s w.toNat := by
  rw [parseCount, Except.map_eq_ok_iff, Text.trim, String.toList_ofList]
  constructor
  · rintro ⟨n, hn, rfl⟩
    obtain ⟨sign, digits, hsign, hne, hdigits, hs, hvalue, hlt⟩ := countOf_eq_ok_iff.mp hn
    have hback : n.toUInt64.toNat = n := Nat.mod_eq_of_lt hlt
    rw [hback]
    exact ⟨sign, digits, hsign, hne, hdigits, hs ▸ Text.pads_trimmed s, hvalue, hlt⟩
  · rintro ⟨sign, digits, hsign, hne, hdigits, hpads, hvalue, hlt⟩
    refine ⟨w.toNat,
      countOf_eq_ok_iff.mpr ⟨sign, digits, hsign, hne, hdigits, ?_, hvalue, hlt⟩, ?_⟩
    · refine Text.trimmed_eq_of_pads hpads fun c hc => ?_
      rcases List.mem_append.mp hc with hc | hc
      · rcases hsign with rfl | rfl
        · cases hc
        · rw [List.mem_singleton.mp hc]
          rfl
      · obtain ⟨hlow, hhigh⟩ := Char.isDigit_iff_toNat.mp (hdigits c hc)
        exact Text.isBlank_of_visible ⟨le_trans (by decide) hlow, le_trans hhigh (by decide)⟩
    · exact UInt64.ofNat_toNat

end ApiSurface
