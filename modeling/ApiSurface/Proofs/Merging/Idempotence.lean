import ApiSurface.Proofs.Merging.Failures
import ApiSurface.Proofs.Merging.Totals

/-!
# Applying something again

An overlay or a list of assumptions is a *contribution* to the symbols of a base. Once it has
been applied, each symbol that it offers statements to can be read and mentions all the domains
that are offered: the contribution is absorbed. Later contributions only append statements, so
it stays absorbed, and there is no more reason to reject it than there was the first time. A
contribution that is absorbed adds nothing when it is applied again, and symbols that nothing
is added to are not written again, so their payloads stay as they stand in the text.

## Main definitions

* `Contribution`: an overlay or assumptions; `Contribution.apply`, `applyAll`.
* `Contribution.Absorbed`: whether a contribution has nothing to add any more.

## Main results

* `Contribution.absorbed_of_apply`, `Contribution.Absorbed.apply`: what one contribution
  establishes and preserves.
* `absorbed_of_applyAll`: what a run of contributions establishes.
* `contributions_idempotent`: applying any of them again changes nothing.
-/

namespace ApiSurface

open Availability (novel containsDomain)

/-! ### Symbols -/

namespace Symbol

variable {s s' : Symbol} {items more : Availability}

/-- Whether a symbol mentions all domains of some statements. Nothing is read of it if
there are none. -/
def Mentions (s : Symbol) (items : Availability) : Prop :=
  items = [] ∨ ∃ known, s.statements = .ok known ∧ novel known items = []

/-- A symbol mentions what it was extended by. -/
theorem Extended.mentions (h : s.Extended items s') : s'.Mentions items := by
  cases h with
  | none hitems => exact .inl hitems
  | @some known hknown =>
    refine .inr ⟨_, statements_extendBy hknown items,
      Availability.novel_eq_nil_iff.mpr fun item hitem => ?_⟩
    rw [← Availability.extendMissing_eq, Availability.containsDomain_extendMissing,
      Bool.or_eq_true]
    exact .inr (List.any_eq_true.mpr ⟨item, hitem, beq_self_eq_true _⟩)

/-- A symbol that is extended still mentions what it did. -/
theorem Mentions.extended (h : s.Mentions items) (hextended : s.Extended more s') :
    s'.Mentions items := by
  obtain hitems | ⟨known, hknown, hnovel⟩ := h
  · exact .inl hitems
  · cases hextended with
    | none => exact .inr ⟨known, hknown, hnovel⟩
    | some hknown' =>
      rw [hknown, Except.ok.injEq] at hknown'
      subst hknown'
      refine .inr ⟨_, statements_extendBy hknown more,
        Availability.novel_eq_nil_iff.mpr fun item hitem => ?_⟩
      rw [Availability.containsDomain_append,
        Availability.novel_eq_nil_iff.mp hnovel item hitem, Bool.true_or]

/-- A symbol that is extended by what it mentions stays as it is. -/
theorem Mentions.eq_of_extended (h : s.Mentions items) (hextended : s.Extended items s') :
    s' = s := by
  cases hextended with
  | none => rfl
  | @some known hknown =>
    have hnovel : novel known items = [] := by
      obtain rfl | ⟨known', hknown', hnovel⟩ := h
      · rfl
      · rw [hknown, Except.ok.injEq] at hknown'
        exact hknown' ▸ hnovel
    rw [extendBy, if_pos hnovel]

end Symbol

/-! ### Tables of symbols -/

/-- Whether the symbols of a table mention all that is offered to them. -/
def MentionAll (offered : String → Except Json.Cause Availability)
    (symbols : Table String Symbol) : Prop :=
  ∀ precise s, symbols.get? precise = some s → ∃ items, offered precise = .ok items ∧
    s.Mentions items

section Tables

variable {offered more : String → Except Json.Cause Availability}
  {symbols symbols' : Table String Symbol}

/-- Symbols mention what they were extended by. -/
theorem Extends.mentionAll (h : Extends offered symbols symbols') :
    MentionAll offered symbols' := by
  intro precise s' hs'
  obtain ⟨items, s, hitems, -, hextended⟩ := h.exists_of_get? hs'
  exact ⟨items, hitems, hextended.mentions⟩

/-- Symbols that are extended still mention what they did. -/
theorem MentionAll.extends (h : MentionAll offered symbols)
    (hextends : Extends more symbols symbols') : MentionAll offered symbols' := by
  intro precise s' hs'
  obtain ⟨_, s, -, hs, hextended⟩ := hextends.exists_of_get? hs'
  obtain ⟨items, hitems, hmentions⟩ := h precise s hs
  exact ⟨items, hitems, hmentions.extended hextended⟩

/-- Symbols that are extended by what they mention stay as they are. -/
theorem MentionAll.eq_of_extends (h : MentionAll offered symbols)
    (hextends : Extends offered symbols symbols') : symbols' = symbols := by
  refine Table.ext_get? fun precise => ?_
  obtain ⟨hnone, hsome⟩ := hextends precise
  cases hs : symbols.get? precise with
  | none => exact hnone hs
  | some s =>
    obtain ⟨items, s', hitems, hs', hextended⟩ := hsome s hs
    obtain ⟨items', hitems', hmentions⟩ := h precise s hs
    rw [hitems, Except.ok.injEq] at hitems'
    subst hitems'
    rw [hs', hmentions.eq_of_extended hextended]

end Tables

/-! ### Contributions -/

/-- Something that adds availability to the symbols of a base. -/
inductive Contribution
  | overlay (graph : UniqueGraph)
  | assumptions (assumed : List AssumedAvailability)

namespace Contribution

/-- Applies a contribution: the symbols, and how many statements were added. -/
def apply (base : Path) (symbols : Table String Symbol) :
    Contribution → Except MergeFault (Table String Symbol × Nat)
  | .overlay graph =>
    (applyOverlay base symbols graph).map fun overlaid => (overlaid.symbols, overlaid.added)
  | .assumptions assumed => applyAssumed base symbols assumed

/-- What a contribution offers to the symbol with an identifier. -/
def offered : Contribution → String → Except Json.Cause Availability
  | .overlay graph => graph.offered
  | .assumptions assumed => fun _ => .ok (assumed.map AssumedAvailability.item)

/-- Why a contribution cannot be applied. -/
def Clash (base : Path) (symbols : Table String Symbol) : Contribution → MergeFault → Prop
  | .overlay graph => OverlayClash base symbols graph
  | .assumptions assumed =>
    fun fault => assumed ≠ [] ∧ ∃ precise, UnreadableAt symbols precise base fault

variable {base : Path} {symbols symbols' : Table String Symbol} {c d : Contribution}
  {added : Nat}

/-- A contribution cannot be applied if it clashes. -/
theorem apply_failsFor (base : Path) (symbols : Table String Symbol) (c : Contribution) :
    (c.apply base symbols).FailsFor (c.Clash base symbols) := by
  cases c with
  | overlay graph => exact (applyOverlay_failsFor base symbols graph).map _
  | assumptions assumed => exact applyAssumed_failsFor base symbols assumed

/-- A contribution extends the symbols of a base. -/
theorem apply_extends (h : c.apply base symbols = .ok (symbols', added)) :
    Extends c.offered symbols symbols' := by
  cases c with
  | overlay graph =>
    obtain ⟨overlaid, hoverlaid, heq⟩ := Except.map_eq_ok_iff.mp h
    cases heq
    exact applyOverlay_extends hoverlaid
  | assumptions assumed => exact applyAssumed_extends h

/-- A contribution adds as many statements as it counts. -/
theorem apply_total (h : c.apply base symbols = .ok (symbols', added)) :
    statementTotal symbols' = statementTotal symbols + added := by
  cases c with
  | overlay graph =>
    obtain ⟨overlaid, hoverlaid, heq⟩ := Except.map_eq_ok_iff.mp h
    cases heq
    exact applyOverlay_total hoverlaid
  | assumptions assumed => exact applyAssumed_total h

/-- Extending the symbols of a base does not change what can be applied to it. -/
theorem clash_iff {offered : String → Except Json.Cause Availability}
    (h : Extends offered symbols symbols') {fault : MergeFault} :
    c.Clash base symbols' fault ↔ c.Clash base symbols fault := by
  cases c with
  | overlay graph => exact h.overlayClash_iff
  | assumptions assumed => simp only [Clash, h.unreadableAt_iff]

/-- Whether a contribution has nothing to add to the symbols of a base, and there is no
reason to reject it. -/
structure Absorbed (base : Path) (symbols : Table String Symbol) (c : Contribution) :
    Prop where
  fits : ∀ fault, ¬ c.Clash base symbols fault
  mentioned : MentionAll c.offered symbols

/-- A contribution that has been applied is absorbed. -/
theorem absorbed_of_apply (h : c.apply base symbols = .ok (symbols', added)) :
    c.Absorbed base symbols' where
  fits fault hclash :=
    (apply_failsFor base symbols c).ok _ h fault ((clash_iff (apply_extends h)).mp hclash)
  mentioned := (apply_extends h).mentionAll

/-- Once absorbed, a contribution stays so whatever is applied. -/
theorem Absorbed.apply (hd : d.Absorbed base symbols)
    (h : c.apply base symbols = .ok (symbols', added)) : d.Absorbed base symbols' where
  fits fault hclash := hd.fits fault ((clash_iff (apply_extends h)).mp hclash)
  mentioned := hd.mentioned.extends (apply_extends h)

/-- A contribution that is absorbed is applied without any effect. -/
theorem Absorbed.apply_eq (h : c.Absorbed base symbols) :
    c.apply base symbols = .ok (symbols, 0) := by
  cases happly : c.apply base symbols with
  | error fault =>
    exact absurd ((apply_failsFor base symbols c).error fault happly) (h.fits fault)
  | ok r =>
    obtain ⟨symbols', added⟩ := r
    obtain rfl := h.mentioned.eq_of_extends (apply_extends happly)
    have htotal := apply_total happly
    have hadded : added = 0 := by omega
    rw [hadded]

end Contribution

/-! ### Runs -/

/-- Applies contributions one after the other: the symbols, and how many
statements were added. -/
def applyAll (base : Path) (symbols : Table String Symbol) :
    List Contribution → Except MergeFault (Table String Symbol × Nat)
  | [] => .ok (symbols, 0)
  | c :: rest => do
    let (symbols, added) ← c.apply base symbols
    let (symbols, later) ← applyAll base symbols rest
    return (symbols, added + later)

section Runs

variable {base : Path} {symbols symbols' : Table String Symbol} {cs again : List Contribution}
  {added : Nat}

/-- A run of contributions is the first of them and then the others. -/
theorem applyAll_cons_eq_ok_iff {c : Contribution} {r : Table String Symbol × Nat} :
    applyAll base symbols (c :: cs) = .ok r ↔ ∃ mid first later,
      c.apply base symbols = .ok (mid, first) ∧ applyAll base mid cs = .ok (r.1, later) ∧
      first + later = r.2 := by
  simp only [applyAll, Except.bind_eq_ok_iff, Except.pure_eq_ok_iff, Prod.exists, Prod.ext_iff]
  constructor
  · rintro ⟨mid, first, hfirst, _, later, hlater, rfl, hadded⟩
    exact ⟨mid, first, later, hfirst, hlater, hadded⟩
  · rintro ⟨mid, first, later, hfirst, hlater, hadded⟩
    exact ⟨mid, first, hfirst, _, later, hlater, rfl, hadded⟩

/-- A run preserves what is absorbed. -/
theorem Contribution.Absorbed.applyAll {d : Contribution} (hd : d.Absorbed base symbols)
    (h : applyAll base symbols cs = .ok (symbols', added)) : d.Absorbed base symbols' := by
  induction cs generalizing symbols added with
  | nil =>
    cases h
    exact hd
  | cons c cs ih =>
    obtain ⟨mid, first, later, hfirst, hlater, -⟩ := applyAll_cons_eq_ok_iff.mp h
    exact ih (hd.apply hfirst) hlater

/-- After a run all its contributions are absorbed. -/
theorem absorbed_of_applyAll (h : applyAll base symbols cs = .ok (symbols', added)) :
    ∀ c ∈ cs, c.Absorbed base symbols' := by
  induction cs generalizing symbols added with
  | nil => exact fun c hc => absurd hc List.not_mem_nil
  | cons c cs ih =>
    obtain ⟨mid, first, later, hfirst, hlater, -⟩ := applyAll_cons_eq_ok_iff.mp h
    refine List.forall_mem_cons.mpr ⟨?_, ih hlater⟩
    exact (Contribution.absorbed_of_apply hfirst).applyAll hlater

/-- Contributions that are absorbed are applied without any effect, in any order. -/
theorem applyAll_eq_of_absorbed (h : ∀ c ∈ again, c.Absorbed base symbols) :
    applyAll base symbols again = .ok (symbols, 0) := by
  induction again with
  | nil => rfl
  | cons c again ih =>
    obtain ⟨hc, hagain⟩ := List.forall_mem_cons.mp h
    exact applyAll_cons_eq_ok_iff.mpr ⟨symbols, 0, 0, hc.apply_eq, ih hagain, rfl⟩

end Runs

/-- **Applying something again.** An overlay that has been applied to some symbols can
be applied to the result, adds nothing and leaves all symbols as they are; so do
assumptions; and after any run of overlays and assumptions so does each of them, and any
run of them in any order. -/
theorem contributions_idempotent (base : Path) (symbols : Table String Symbol) :
    (∀ graph overlaid, applyOverlay base symbols graph = .ok overlaid →
      ∃ again, applyOverlay base overlaid.symbols graph = .ok again ∧ again.added = 0 ∧
        again.symbols = overlaid.symbols) ∧
    (∀ assumed symbols' added, applyAssumed base symbols assumed = .ok (symbols', added) →
      applyAssumed base symbols' assumed = .ok (symbols', 0)) ∧
    (∀ cs symbols' added, applyAll base symbols cs = .ok (symbols', added) →
      (∀ c ∈ cs, c.apply base symbols' = .ok (symbols', 0)) ∧
      ∀ again, (∀ c ∈ again, c ∈ cs) → applyAll base symbols' again = .ok (symbols', 0)) := by
  refine ⟨fun graph overlaid h => ?_, fun assumed symbols' added h => ?_,
    fun cs symbols' added h => ?_⟩
  · have happly :
        (Contribution.overlay graph).apply base symbols =
          .ok (overlaid.symbols, overlaid.added) := by
      rw [Contribution.apply, h]
      rfl
    have hagain := (Contribution.absorbed_of_apply happly).apply_eq
    obtain ⟨again, hagain, heq⟩ := Except.map_eq_ok_iff.mp hagain
    obtain ⟨hsymbols, hadded⟩ := Prod.mk.inj heq
    exact ⟨again, hagain, hadded, hsymbols⟩
  · have happly :
        (Contribution.assumptions assumed).apply base symbols = .ok (symbols', added) := h
    exact (Contribution.absorbed_of_apply happly).apply_eq
  · have habsorbed := absorbed_of_applyAll h
    exact ⟨fun c hc => (habsorbed c hc).apply_eq,
      fun again hagain => applyAll_eq_of_absorbed fun c hc => habsorbed c (hagain c hc)⟩

/-- The symbols of a graph for one domain. -/
def symbolsForOneDomain : Table String Symbol :=
  (graphAvailableFor "a/M.symbols.json" "macOS").symbols

/-- A graph for a second domain and the assumption of a third one. -/
def contributionsForTwoDomains : List Contribution :=
  [.overlay (graphAvailableFor "b/M.symbols.json" "iOS"),
    .assumptions [⟨"tvOS", ⟨2, 0, 0, none, none⟩⟩]]

/-- Statements for two more domains are added once, and no more if they are added again in
the other order. -/
theorem contributions_idempotent_twoDomains : ∃ symbols,
    applyAll (.ofText "a/M.symbols.json") symbolsForOneDomain contributionsForTwoDomains =
    .ok (symbols, 2) ∧
    applyAll (.ofText "a/M.symbols.json") symbols contributionsForTwoDomains.reverse =
    .ok (symbols, 0) := by
  have hadded : (applyAll (.ofText "a/M.symbols.json") symbolsForOneDomain
      contributionsForTwoDomains).toOption.map Prod.snd = some 2 := by
    decide +kernel
  cases h : applyAll (.ofText "a/M.symbols.json") symbolsForOneDomain
      contributionsForTwoDomains with
  | error fault =>
    rw [h] at hadded
    cases hadded
  | ok r =>
    obtain ⟨symbols, added⟩ := r
    rw [h] at hadded
    obtain rfl : added = 2 := Option.some.inj hadded
    refine ⟨symbols, rfl, ?_⟩
    exact ((contributions_idempotent _ _).2.2 _ symbols 2 h).2 _ fun c hc =>
      List.mem_reverse.mp hc

end ApiSurface
