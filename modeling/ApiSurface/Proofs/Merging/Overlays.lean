import ApiSurface.Merging.Overlay
import ApiSurface.Proofs.Model.Availability
import ApiSurface.Proofs.Model.Mixins
import ApiSurface.Proofs.Results

/-!
# What overlays add

Whatever is added to the symbols of a base, by an overlay or as an assumption, each symbol
is *extended*: it gets the statements offered to it about domains that it does not mention,
and stays as it is if there are none. Extending a symbol twice is extending it once by what
is offered both times, so all that is added to a graph on the way can be told for each
symbol at once.

## Main results

* `Symbol.Extended`, `Symbol.Extended.trans`: extensions of a symbol.
* `Extends`, `Extends.trans`: extensions of all symbols of a table.
* `applyOverlay_extends`, `applyAssumed_extends`: an overlay and assumptions extend the
  symbols of a base.
-/

namespace ApiSurface

open Availability (novel)

/-! ### One symbol -/

namespace Symbol

/-- The statements on the availability of a symbol; none if it has no such payload. -/
def statements (s : Symbol) : Except Json.Cause Availability := s.availability.map (·.getD [])

/-- What stands in a symbol as its availability. -/
def availabilityValue (s : Symbol) : Option Json.Value := s.mixins.get? Availability.mixin.key

/-- The symbol with what is novel among some statements offered, given the
statements it has. -/
def extendBy (s : Symbol) (known offered : Availability) : Symbol :=
  if novel known offered = [] then s
  else s.setMixin Availability.mixin (known ++ novel known offered)

/-- Whether a symbol is what another one becomes by some statements offered. Nothing is read
of a symbol that nothing is offered to. -/
inductive Extended (s : Symbol) (offered : Availability) : Symbol → Prop
  | none : offered = [] → Extended s offered s
  | some {known : Availability} :
      s.statements = .ok known → Extended s offered (s.extendBy known offered)

variable {s s' s'' : Symbol} {known offered more : Availability} {path : Path}

/-- Extending the availability of a symbol succeeds if the symbol has a readable one. -/
theorem extendAvailability_eq_ok_iff {r : Symbol × Nat} :
    s.extendAvailability path offered = .ok r ↔
      ∃ known, s.statements = .ok known ∧
        (s.extendBy known offered, (novel known offered).length) = r := by
  simp only [extendAvailability, readAvailability, statements, Except.bind_eq_ok_iff,
    Except.mapError_eq_ok_iff, Except.map_eq_ok_iff, Availability.missingCount_eq,
    Availability.extendMissing_eq, List.length_eq_zero_iff]
  constructor
  · rintro ⟨payload, hpayload, h⟩
    refine ⟨payload.getD [], ⟨payload, hpayload, rfl⟩, ?_⟩
    by_cases hnovel : novel (payload.getD []) offered = []
    · simpa [extendBy, hnovel] using h
    · simpa [extendBy, hnovel] using h
  · rintro ⟨_, ⟨payload, hpayload, rfl⟩, rfl⟩
    refine ⟨payload, hpayload, ?_⟩
    by_cases hnovel : novel (payload.getD []) offered = []
    · simp [extendBy, hnovel]
    · simp [extendBy, hnovel]

/-- The statements of a symbol that has been extended. -/
theorem statements_extendBy (h : s.statements = .ok known) (offered : Availability) :
    (s.extendBy known offered).statements = .ok (known ++ novel known offered) := by
  by_cases hnovel : novel known offered = []
  · rw [extendBy, if_pos hnovel, h, hnovel, List.append_nil]
  · rw [extendBy, if_neg hnovel, statements, availability,
      mixin?_setMixin _ _ Availability.shape_isPlain]
    rfl

/-- Extending a symbol by some statements and then by more. -/
theorem extendBy_extendBy (known offered more : Availability) :
    (s.extendBy known offered).extendBy (known ++ novel known offered) more =
      s.extendBy known (offered ++ more) := by
  have happend := Availability.novel_append known offered more
  by_cases hnovel : novel known offered = []
  · have hall : novel known (offered ++ more) = novel known more := by
      rw [happend, hnovel, List.nil_append, List.append_nil]
    simp only [extendBy, hnovel, if_true, List.append_nil, hall]
  · have hall : novel known (offered ++ more) ≠ [] := by
      rw [happend]
      exact List.append_ne_nil_of_left_ne_nil hnovel _
    simp only [extendBy, hnovel, hall, if_false]
    rw [happend, ← List.append_assoc]
    split
    · next hmore => rw [hmore, List.append_nil]
    · rw [setMixin_setMixin]

/-- A symbol that is extended twice is extended by what is offered both times. -/
theorem Extended.trans (h : s.Extended offered s') (h' : s'.Extended more s'') :
    s.Extended (offered ++ more) s'' := by
  cases h with
  | none hoffered => rwa [hoffered, List.nil_append]
  | @some known hknown =>
    cases h' with
    | none hmore =>
      rw [hmore, List.append_nil]
      exact .some hknown
    | some hmore =>
      rw [statements_extendBy hknown, Except.ok.injEq] at hmore
      subst hmore
      rw [extendBy_extendBy]
      exact .some hknown

end Symbol

/-! ### All symbols of a table -/

/-- Whether a table has the symbols of another one, each extended by what is offered to it
under its identifier. -/
def Extends (offered : String → Except Json.Cause Availability)
    (symbols symbols' : Table String Symbol) : Prop :=
  ∀ precise,
    (symbols.get? precise = none → symbols'.get? precise = none) ∧
    ∀ s, symbols.get? precise = some s →
      ∃ items s', offered precise = .ok items ∧ symbols'.get? precise = some s' ∧
        s.Extended items s'

namespace Extends

variable {offered more : String → Except Json.Cause Availability}
  {symbols symbols' symbols'' : Table String Symbol}

/-- If nothing is offered, symbols stay as they are. -/
theorem refl (symbols : Table String Symbol) : Extends (fun _ => .ok []) symbols symbols :=
  fun _ => ⟨id, fun s hs => ⟨[], s, rfl, hs, .none rfl⟩⟩

/-- Symbols that are extended twice are extended by what is offered both times. -/
theorem trans (h : Extends offered symbols symbols') (h' : Extends more symbols' symbols'') :
    Extends (fun precise => do return (← offered precise) ++ (← more precise)) symbols
      symbols'' := by
  intro precise
  obtain ⟨hnone, hsome⟩ := h precise
  obtain ⟨hnone', hsome'⟩ := h' precise
  refine ⟨fun hs => hnone' (hnone hs), fun s hs => ?_⟩
  obtain ⟨items, s', hitems, hs', hextended⟩ := hsome s hs
  obtain ⟨items', s'', hitems', hs'', hextended'⟩ := hsome' s' hs'
  refine ⟨items ++ items', s'', ?_, hs'', hextended.trans hextended'⟩
  simp only [hitems, hitems']
  rfl

/-- Extending one symbol of a table. -/
theorem insert {precise : String} {s s' : Symbol} {items : Availability}
    (hs : symbols.get? precise = some s) (h : s.Extended items s') :
    Extends (fun precise' => .ok (if precise' = precise then items else [])) symbols
      (symbols.insert precise s') := by
  intro precise'
  by_cases hprecise : precise' = precise
  · subst hprecise
    rw [hs, Table.get?_insert_self]
    refine ⟨nofun, fun t ht => ?_⟩
    cases ht
    exact ⟨items, s', congrArg Except.ok (if_pos rfl), rfl, h⟩
  · rw [Table.get?_insert_of_ne _ _ hprecise]
    exact ⟨id, fun t ht => ⟨[], t, congrArg Except.ok (if_neg hprecise), ht, .none rfl⟩⟩

/-- What is offered matters only where there is a symbol. -/
theorem congr (h : Extends offered symbols symbols')
    (eq : ∀ precise items, offered precise = .ok items → more precise = .ok items) :
    Extends more symbols symbols' := by
  intro precise
  obtain ⟨hnone, hsome⟩ := h precise
  refine ⟨hnone, fun s hs => ?_⟩
  obtain ⟨items, s', hitems, hs', hextended⟩ := hsome s hs
  exact ⟨items, s', eq precise items hitems, hs', hextended⟩

/-- Each symbol there is afterwards is one from before, extended. -/
theorem exists_of_get? (h : Extends offered symbols symbols') {precise : String} {s' : Symbol}
    (hs' : symbols'.get? precise = some s') : ∃ items s,
      offered precise = .ok items ∧ symbols.get? precise = some s ∧ s.Extended items s' := by
  obtain ⟨hnone, hsome⟩ := h precise
  cases hs : symbols.get? precise with
  | none =>
    rw [hnone hs] at hs'
    cases hs'
  | some s =>
    obtain ⟨items, t, hitems, ht, hextended⟩ := hsome s hs
    rw [hs', Option.some.injEq] at ht
    exact ⟨items, s, hitems, rfl, ht ▸ hextended⟩

/-- Extending symbols keeps their identifiers. -/
theorem keys_eq (h : Extends offered symbols symbols') : symbols'.keys = symbols.keys := by
  refine Table.keys_eq_of_get? fun precise => ?_
  obtain ⟨hnone, hsome⟩ := h precise
  cases hs : symbols.get? precise with
  | none => rw [hnone hs]
  | some s =>
    obtain ⟨_, s', -, hs', -⟩ := hsome s hs
    rw [hs']
    rfl

end Extends

/-! ### Overlays -/

/-- What some symbols offer under an identifier: the statements of the symbol that has it. -/
def offeredAmong (entries : List (String × Symbol)) (precise : String) :
    Except Json.Cause Availability :=
  match lookupEntry precise entries with
  | none => .ok []
  | some symbol => symbol.statements

/-- What a graph offers to the symbol with an identifier. -/
def UniqueGraph.offered (graph : UniqueGraph) : String → Except Json.Cause Availability :=
  offeredAmong graph.symbols.entries

/-- The first of some symbols offers its statements under its identifier. -/
theorem offeredAmong_cons_self (precise : String) (symbol : Symbol)
    (entries : List (String × Symbol)) :
    offeredAmong ((precise, symbol) :: entries) precise = symbol.statements := by
  rw [offeredAmong, lookupEntry, if_pos Std.ReflCmp.compare_self]

/-- The first of some symbols offers nothing under other identifiers. -/
theorem offeredAmong_cons_of_ne {precise precise' : String} (h : precise' ≠ precise)
    (symbol : Symbol) (entries : List (String × Symbol)) :
    offeredAmong ((precise, symbol) :: entries) precise' = offeredAmong entries precise' := by
  have hne : compare precise' precise ≠ .eq := fun heq => h (Std.LawfulEqCmp.eq_of_compare heq)
  rw [offeredAmong, lookupEntry, if_neg hne, offeredAmong]

/-- What a symbol offers to the one with its identifier: nothing if it has no availability. -/
theorem applySymbol_eq_ok {base overlay : Path} {state state' : Overlaid} {precise : String}
    {offering symbol : Symbol} (hsymbol : state.symbols.get? precise = some symbol)
    (h : applySymbol base overlay state (precise, offering) = .ok state') :
    ∃ items extended, offering.statements = .ok items ∧ symbol.Extended items extended ∧
      state'.symbols = state.symbols.insert precise extended := by
  simp only [applySymbol, hsymbol, Except.bind_eq_ok_iff, Symbol.readAvailability,
    Except.mapError_eq_ok_iff] at h
  obtain ⟨payload, hpayload, h⟩ := h
  cases payload with
  | none =>
    rw [Except.pure_eq_ok_iff] at h
    subst h
    refine ⟨[], symbol, ?_, .none rfl, (Table.insert_eq_self hsymbol).symm⟩
    rw [Symbol.statements, hpayload]
    rfl
  | some items =>
    simp only [Except.bind_eq_ok_iff, Except.pure_eq_ok_iff, Prod.exists] at h
    obtain ⟨extended, count, hextended, rfl⟩ := h
    obtain ⟨known, hknown, heq⟩ := Symbol.extendAvailability_eq_ok_iff.mp hextended
    cases heq
    refine ⟨items, _, ?_, .some hknown, rfl⟩
    rw [Symbol.statements, hpayload]
    rfl

/-- One symbol extends the one with its identifier, and no other. -/
theorem applySymbol_extends {base overlay : Path} {state state' : Overlaid}
    {entry : String × Symbol} (h : applySymbol base overlay state entry = .ok state') :
    Extends (offeredAmong [entry]) state.symbols state'.symbols := by
  obtain ⟨precise, offering⟩ := entry
  cases hsymbol : state.symbols.get? precise with
  | none =>
    simp only [applySymbol, hsymbol, Except.pure_eq_ok_iff] at h
    subst h
    intro precise'
    refine ⟨id, fun s hs => ⟨[], s, ?_, hs, .none rfl⟩⟩
    have hne : precise' ≠ precise := by
      rintro rfl
      rw [hsymbol] at hs
      cases hs
    rw [offeredAmong_cons_of_ne hne]
    rfl
  | some symbol =>
    obtain ⟨items, extended, hitems, hextended, hstate⟩ := applySymbol_eq_ok hsymbol h
    rw [hstate]
    refine (Extends.insert hsymbol hextended).congr fun precise' items' hitems' => ?_
    cases hitems'
    split
    · next heq => rw [heq, offeredAmong_cons_self, hitems]
    · next hne =>
      rw [offeredAmong_cons_of_ne hne]
      rfl

/-- The symbols of an overlay extend those with their identifiers. -/
theorem foldlM_applySymbol_extends {base overlay : Path} {entries : List (String × Symbol)}
    (increasing : KeysIncrease entries) {state state' : Overlaid}
    (h : entries.foldlM (applySymbol base overlay) state = .ok state') :
    Extends (offeredAmong entries) state.symbols state'.symbols := by
  induction entries generalizing state with
  | nil =>
    rw [List.foldlM_nil, Except.pure_eq_ok_iff] at h
    subst h
    exact .refl _
  | cons entry entries ih =>
    obtain ⟨precise, symbol⟩ := entry
    rw [List.foldlM_cons, Except.bind_eq_ok_iff] at h
    obtain ⟨mid, hmid, hrest⟩ := h
    refine ((applySymbol_extends hmid).trans
      (ih (List.pairwise_cons.mp increasing).2 hrest)).congr ?_
    intro precise' items hitems
    simp only [Except.bind_eq_ok_iff, Except.pure_eq_ok_iff] at hitems
    obtain ⟨first, hfirst, later, hlater, rfl⟩ := hitems
    -- An identifier stands for the first symbol or for a later one, never for both.
    by_cases hprecise : precise' = precise
    · subst hprecise
      rw [offeredAmong, increasing.lookupEntry_rest] at hlater
      cases hlater
      rw [offeredAmong_cons_self] at hfirst ⊢
      rw [hfirst, List.append_nil]
    · rw [offeredAmong_cons_of_ne hprecise] at hfirst ⊢
      cases hfirst
      exact hlater

/-- An overlay extends the symbols of a base. -/
theorem applyOverlay_extends {base : Path} {symbols : Table String Symbol}
    {overlay : UniqueGraph} {overlaid : Overlaid}
    (h : applyOverlay base symbols overlay = .ok overlaid) :
    Extends overlay.offered symbols overlaid.symbols := by
  simp only [applyOverlay, Except.bind_eq_ok_iff] at h
  obtain ⟨state, hstate, h⟩ := h
  split at h
  · cases h
  · cases h
    exact foldlM_applySymbol_extends overlay.symbols.increasing hstate

/-! ### Assumptions -/

/-- The statements assumed for the symbols that were authored in a module. -/
def Assumptions.statements (assumptions : Assumptions) (author : String) : Availability :=
  ((assumptions.get? author).getD []).map AssumedAvailability.item

/-- Statements that are assumed for some symbols of a table extend those, and no others. -/
theorem foldlM_assumeFor_extends {base : Path} {items : Availability}
    {entries : List (String × Symbol)} (increasing : KeysIncrease entries)
    {state state' : Table String Symbol × Nat}
    (present : ∀ entry ∈ entries, state.1.get? entry.1 = some entry.2)
    (h : entries.foldlM (assumeFor base items) state = .ok state') :
    Extends (fun precise => .ok (if (lookupEntry precise entries).isSome then items else []))
      state.1 state'.1 := by
  induction entries generalizing state with
  | nil =>
    rw [List.foldlM_nil, Except.pure_eq_ok_iff] at h
    subst h
    exact .refl _
  | cons entry entries ih =>
    obtain ⟨precise, symbol⟩ := entry
    obtain ⟨hsymbol, hlater⟩ := List.forall_mem_cons.mp present
    simp only [List.foldlM_cons, assumeFor, Except.bind_eq_ok_iff, Except.pure_eq_ok_iff,
      Prod.exists] at h
    obtain ⟨table, count, ⟨extended, added, hextended, heq⟩, hrest⟩ := h
    obtain ⟨rfl, rfl⟩ := Prod.mk.inj heq
    obtain ⟨known, hknown, heq⟩ := Symbol.extendAvailability_eq_ok_iff.mp hextended
    obtain ⟨rfl, rfl⟩ := Prod.mk.inj heq
    have hpresent : ∀ entry ∈ entries,
        (state.1.insert precise (symbol.extendBy known items)).get? entry.1 =
        some entry.2 := by
      intro entry hentry
      rw [Table.get?_insert_of_ne _ _ (increasing.ne_of_mem hentry), hlater entry hentry]
    have hextends : symbol.Extended items (symbol.extendBy known items) := .some hknown
    have hfirst := Extends.insert hsymbol hextends
    refine (hfirst.trans (ih (List.pairwise_cons.mp increasing).2 hpresent hrest)).congr ?_
    intro precise' items' hitems
    cases hitems
    rw [lookupEntry]
    by_cases hprecise : precise' = precise
    · subst hprecise
      rw [increasing.lookupEntry_rest, if_pos Std.ReflCmp.compare_self]
      simp
    · have hne : compare precise' precise ≠ .eq :=
        fun heq => hprecise (Std.LawfulEqCmp.eq_of_compare heq)
      simp [hprecise, hne]

/-- Assumptions extend all symbols of a base. -/
theorem applyAssumed_extends {base : Path} {symbols symbols' : Table String Symbol}
    {added : Nat} {assumed : List AssumedAvailability}
    (h : applyAssumed base symbols assumed = .ok (symbols', added)) :
    Extends (fun _ => .ok (assumed.map AssumedAvailability.item)) symbols symbols' := by
  rw [applyAssumed] at h
  split at h
  · next hempty =>
    cases h
    rw [List.isEmpty_iff.mp hempty]
    exact .refl _
  · have hfold := foldlM_assumeFor_extends symbols.increasing
      (fun _ hentry => Table.mem_entries_iff.mp hentry) h
    intro precise
    obtain ⟨hnone, hsome⟩ := hfold precise
    refine ⟨hnone, fun s hs => ?_⟩
    obtain ⟨items, s', hitems, hs', hextended⟩ := hsome s hs
    dsimp only at hitems
    rw [show lookupEntry precise symbols.entries = some s from hs] at hitems
    exact ⟨items, s', hitems, hs', hextended⟩

end ApiSurface
