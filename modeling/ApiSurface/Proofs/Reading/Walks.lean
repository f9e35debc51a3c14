import ApiSurface.Proofs.Reading.Trees

/-!
# Walks over objects

Reading walks along an object and stops at the first fault, so its definition is about the
order of steps. A walk that gets to the end has found the brace in place, and what it did
is told by the members alone. Over the members of a record it fills the slots of the
fields; the slot of a field depends only on the members under its key, so the fields can
be looked at one by one.

## Main results

* `decodeMembers_eq_ok_iff`: objects in general.
* `fill_head_iff`: the slot of a first field and those of the others are filled independently.
* `walk_passing_iff`, `walk_keeping_iff`: walks that pass over the members of no
  field, or keep them.
-/

namespace ApiSurface

open Json

namespace Wire

variable {α β σ : Type}

/-- A walk over the members of an object: each key passes, and its value
is added to the state. -/
inductive Walk (repeated : String → σ → Option Cause)
    (add : String → Node → σ → Except Fault σ) :
    List (String × Node) → σ → σ → Prop
  | done {s : σ} : Walk repeated add [] s s
  | step {key : String} {value : Node} {entries : List (String × Node)} {s m s' : σ} :
      repeated key s = none → add key value s = .ok m → Walk repeated add entries m s' →
      Walk repeated add ((key, value) :: entries) s s'

section Members

variable {repeated : String → σ → Option Cause} {add : String → Node → σ → Except Fault σ}

/-- A member can be read exactly when its key passes and its value can be added. -/
theorem decodeMembers_member_iff {key : Spelling} {pause after : Nat} {value : Node}
    {rest : Members} {s : σ} {r : σ × Nat} :
    decodeMembers repeated add (.member key pause value after rest) s = .ok r ↔
      ∃ name m, key.text = .ok name ∧ repeated name s = none ∧ add name value s = .ok m ∧
        decodeMembers repeated add rest m = .ok r := by
  simp only [decodeMembers, Except.bind_eq_ok_iff]
  constructor
  · rintro ⟨name, hname, h⟩
    cases hrep : repeated name s with
    | some cause => simp [hrep] at h
    | none =>
      simp only [hrep, Except.bind_eq_ok_iff] at h
      obtain ⟨m, hm, hrest⟩ := h
      exact ⟨name, m, hname, hrep, hm, hrest⟩
  · rintro ⟨name, m, hname, hrep, hm, hrest⟩
    refine ⟨name, hname, ?_⟩
    simp only [hrep, Except.bind_eq_ok_iff]
    exact ⟨m, hm, hrest⟩

/-- An object with a key that no colon follows cannot be read. -/
theorem decodeMembers_halted_ne_ok {key : Spelling} {pause : Nat} {fault : Fault} {s : σ}
    {r : σ × Nat} : decodeMembers repeated add (.halted key pause fault) s ≠ .ok r := by
  simp only [decodeMembers, ne_eq, Except.bind_eq_ok_iff, not_exists, not_and]
  intro name _
  cases repeated name s <;> simp

/-- All members of an object can be read exactly when its brace is in place and a walk over
them gets to the end. -/
theorem decodeMembers_eq_ok_iff (members : Members) {s s' : σ} {stop : Nat} :
    decodeMembers repeated add members s = .ok (s', stop) ↔
      ∃ entries, members.entries? = some entries ∧ Walk repeated add entries s s' ∧
        stop = members.stop := by
  match members with
  | .close place =>
    simp only [decodeMembers, Members.finish, Members.entries?, Members.stop, Except.ok.injEq,
      Prod.mk.injEq, Option.some.injEq]
    constructor
    · rintro ⟨rfl, rfl⟩
      exact ⟨[], rfl, .done, rfl⟩
    · rintro ⟨_, rfl, hwalk, rfl⟩
      cases hwalk
      exact ⟨rfl, rfl⟩
  | .member key pause value after rest =>
    simp only [decodeMembers_member_iff, Members.entries?, Members.stop,
      decodeMembers_eq_ok_iff rest]
    constructor
    · rintro ⟨name, m, hname, hrep, hm, entries, hentries, hwalk, rfl⟩
      exact ⟨(name, value) :: entries, by simp [hname, hentries], .step hrep hm hwalk, rfl⟩
    · rintro ⟨entries, hentries, hwalk, rfl⟩
      cases hname : key.text with
      | error fault => simp [hname] at hentries
      | ok name =>
        simp only [hname, Option.map_eq_some_iff] at hentries
        obtain ⟨later, hlater, rfl⟩ := hentries
        cases hwalk with
        | step hrep hm hrest => exact ⟨name, _, rfl, hrep, hm, later, hlater, hrest, rfl⟩
  | .halted key pause fault =>
    simp [decodeMembers_halted_ne_ok, Members.entries?]
  | .badKey _ | .noKey _ | .trailing _ | .unfinished _ | .stray _ | .ended _ =>
    simp [decodeMembers, Members.finish, Members.entries?]

end Members

/-! ### Members under a key -/

/-- The values that stand under a key. -/
def under (key : String) (entries : List (String × Node)) : List Node :=
  (entries.filter fun entry => entry.1 = key).map Prod.snd

/-- The members that stand under other keys. -/
def besides (key : String) (entries : List (String × Node)) : List (String × Node) :=
  entries.filter fun entry => entry.1 ≠ key

@[simp] theorem under_cons_self (key : String) (value : Node)
    (entries : List (String × Node)) :
    under key ((key, value) :: entries) = value :: under key entries := by
  simp [under]

@[simp] theorem besides_cons_self (key : String) (value : Node)
    (entries : List (String × Node)) :
    besides key ((key, value) :: entries) = besides key entries := by
  simp [besides]

theorem under_cons_ne {key name : String} (h : name ≠ key) (value : Node)
    (entries : List (String × Node)) :
    under key ((name, value) :: entries) = under key entries := by
  simp [under, h]

theorem besides_cons_ne {key name : String} (h : name ≠ key) (value : Node)
    (entries : List (String × Node)) :
    besides key ((name, value) :: entries) = (name, value) :: besides key entries := by
  simp [besides, h]

/-! ### Walks over the fields of a record -/

/-- A walk over members that fills the slots of some fields, with the members of no
field left over. -/
inductive Fill (repeated : String → σ → Option Cause)
    (store : String → Node → σ → Option (Except Fault σ)) :
    List (String × Node) → σ → σ → List (String × Node) → Prop
  | done {s : σ} : Fill repeated store [] s s []
  | field {key : String} {value : Node} {entries left : List (String × Node)} {s m s' : σ} :
      repeated key s = none → store key value s = some (.ok m) →
      Fill repeated store entries m s' left →
      Fill repeated store ((key, value) :: entries) s s' left
  | other {key : String} {value : Node} {entries left : List (String × Node)} {s s' : σ} :
      store key value s = none → Fill repeated store entries s s' left →
      Fill repeated store ((key, value) :: entries) s s' ((key, value) :: left)

/-- What the values under its key do to the slot of a field: nothing if there is none; if there
is one, the slot has been empty and gets what the value spells. There are never two. -/
def SlotGets (read : Node → Except Fault α) (nodes : List Node)
    (slot slot' : Option α) : Prop :=
  (nodes = [] ∧ slot' = slot) ∨
    (slot = none ∧ ∃ node a, nodes = [node] ∧ read node = .ok a ∧ slot' = some a)

section Head

variable (key : String) (read : Node → Except Fault α) (repeated : String → σ → Option Cause)
  (store : String → Node → σ → Option (Except Fault σ))

/-- The fault of a repeated key, for a first field and others after it. -/
def headRepeated (name : String) (slots : Option α × σ) : Option Cause :=
  Fields.repeated.again key name slots.1.isSome (repeated name slots.2)

/-- Storing the value of a member, for a first field and others after it. -/
def headStore (name : String) (value : Node) (slots : Option α × σ) :
    Option (Except Fault (Option α × σ)) :=
  if name = key then some ((read value).map fun a => (some a, slots.2))
  else (store name value slots.2).map (·.map fun later => (slots.1, later))

variable {key read repeated store} {entries left : List (String × Node)} {s s' : Option α × σ}

/-- A walk over the members, seen from the first field: what stands under its key goes
into its slot. -/
theorem Fill.of_head
    (h : Fill (headRepeated key repeated) (headStore key read store) entries s s' left) :
    SlotGets read (under key entries) s.1 s'.1 ∧
      Fill repeated store (besides key entries) s.2 s'.2 left := by
  induction h with
  | done => exact ⟨.inl ⟨rfl, rfl⟩, .done⟩
  | @field name value entries left s m s' hrep hstore _ ih =>
    obtain ⟨hslot, hfill⟩ := ih
    by_cases hname : name = key
    · subst hname
      have hempty : s.1 = none := by
        cases hs : s.1 with
        | none => rfl
        | some a => simp [headRepeated, Fields.repeated.again, hs] at hrep
      simp only [headStore, if_true, Option.some.injEq, Except.map_eq_ok_iff] at hstore
      obtain ⟨a, ha, rfl⟩ := hstore
      rcases hslot with ⟨hnodes, hs'⟩ | ⟨hne, -⟩
      · rw [under_cons_self, besides_cons_self, hnodes]
        exact ⟨.inr ⟨hempty, value, a, rfl, ha, hs'⟩, hfill⟩
      · exact absurd hne (by simp)
    · have hlater : repeated name s.2 = none := by
        simpa [headRepeated, Fields.repeated.again, hname] using hrep
      obtain ⟨later, hstore', rfl⟩ : ∃ later, store name value s.2 = some (.ok later) ∧
          m = (s.1, later) := by
        simp only [headStore, hname, if_false, Option.map_eq_some_iff,
          Except.map_eq_ok_iff] at hstore
        obtain ⟨r, hr, later, rfl, rfl⟩ := hstore
        exact ⟨later, hr, rfl⟩
      rw [under_cons_ne hname, besides_cons_ne hname]
      exact ⟨hslot, .field hlater hstore' hfill⟩
  | @other name value entries left s s' hstore _ ih =>
    obtain ⟨hslot, hfill⟩ := ih
    have hname : name ≠ key := by
      rintro rfl
      simp [headStore] at hstore
    have hstore' : store name value s.2 = none := by
      simpa [headStore, hname] using hstore
    rw [under_cons_ne hname, besides_cons_ne hname]
    exact ⟨hslot, .other hstore' hfill⟩

/-- The slot of the first field and those of the others can be filled independently. -/
theorem Fill.head (hslot : SlotGets read (under key entries) s.1 s'.1)
    (hfill : Fill repeated store (besides key entries) s.2 s'.2 left) :
    Fill (headRepeated key repeated) (headStore key read store) entries s s' left := by
  induction entries generalizing s left with
  | nil =>
    obtain ⟨a, later⟩ := s
    obtain ⟨a', later'⟩ := s'
    obtain ⟨-, rfl⟩ | ⟨-, _, _, hnil, -⟩ := hslot
    · cases hfill
      exact .done
    · cases hnil
  | cons entry entries ih =>
    obtain ⟨name, value⟩ := entry
    by_cases hname : name = key
    · subst hname
      rw [under_cons_self] at hslot
      rw [besides_cons_self] at hfill
      obtain ⟨hnil, -⟩ | ⟨hempty, node, a, hnodes, ha, hs'⟩ := hslot
      · cases hnil
      · obtain ⟨rfl, hrest⟩ : value = node ∧ under name entries = [] := by simpa using hnodes
        refine .field (m := (some a, s.2)) ?_ ?_ (ih (.inl ⟨hrest, hs'⟩) hfill)
        · simp [headRepeated, Fields.repeated.again, hempty]
        · simp [headStore, ha, Except.map]
    · rw [under_cons_ne hname] at hslot
      rw [besides_cons_ne hname] at hfill
      cases hfill with
      | @field _ _ _ _ _ m _ hrep hstore hrest =>
        refine .field (m := (s.1, m)) ?_ ?_ (ih hslot hrest)
        · simpa [headRepeated, Fields.repeated.again, hname] using hrep
        · simp [headStore, hname, hstore, Except.map]
      | other hstore hrest =>
        refine .other ?_ (ih hslot hrest)
        simp [headStore, hname, hstore]

end Head

/-! ### Members of no field -/

/-- Where storing finds no field for a key, the key is not a repeated one either. -/
def Attuned (repeated : String → σ → Option Cause)
    (store : String → Node → σ → Option (Except Fault σ)) : Prop :=
  ∀ key value s, store key value s = none → repeated key s = none

section Rest

variable {repeated : String → σ → Option Cause}
  {store : String → Node → σ → Option (Except Fault σ)} (known : Attuned repeated store)
include known

/-- A walk that passes over the members of no field fills slots, and passes over what
is left over. -/
theorem walk_passing_iff {entries : List (String × Node)} {s s' : σ} :
    Walk repeated (fun key value s => (store key value s).getD do value.skip; return s)
        entries s s' ↔
      ∃ left, Fill repeated store entries s s' left ∧
        ∀ entry ∈ left, entry.2.skip = .ok () := by
  constructor
  · intro h
    induction h with
    | done => exact ⟨[], .done, by simp⟩
    | @step key value entries s m s' hrep hadd _ ih =>
      obtain ⟨left, hfill, hskip⟩ := ih
      cases hstore : store key value s with
      | some stored =>
        rw [hstore, Option.getD_some] at hadd
        exact ⟨left, .field hrep (hadd ▸ hstore) hfill, hskip⟩
      | none =>
        simp only [hstore, Option.getD_none, Except.bind_eq_ok_iff,
          Except.pure_eq_ok_iff] at hadd
        obtain ⟨_, hvalue, rfl⟩ := hadd
        exact ⟨(key, value) :: left, .other hstore hfill,
          List.forall_mem_cons.mpr ⟨hvalue, hskip⟩⟩
  · rintro ⟨left, hfill, hskip⟩
    induction hfill with
    | done => exact .done
    | field hrep hstore _ ih =>
      refine .step hrep ?_ (ih hskip)
      rw [hstore, Option.getD_some]
    | other hstore _ ih =>
      obtain ⟨hvalue, hskip⟩ := List.forall_mem_cons.mp hskip
      refine .step (known _ _ _ hstore) ?_ (ih hskip)
      rw [hstore, Option.getD_none, hvalue]
      rfl

/-- A walk that keeps the members of no field fills slots, and collects what is left over in
reverse order. -/
theorem walk_keeping_iff (depth : Depth) {entries : List (String × Node)}
    {r r' : σ × List (String × Value)}
    {add : String → Node → σ × List (String × Value) →
      Except Fault (σ × List (String × Value))}
    (stores : ∀ key value r stored, store key value r.1 = some stored →
      add key value r = stored.map fun slots => (slots, r.2))
    (keeps : ∀ key value r, store key value r.1 = none →
      add key value r = do return (r.1, (key, ← value.keep depth) :: r.2)) :
    Walk (fun key r => repeated key r.1) add entries r r' ↔
      ∃ left kept, Fill repeated store entries r.1 r'.1 left ∧
        List.Forall₂ (Keeps depth) left kept ∧ r'.2 = kept.reverse ++ r.2 := by
  constructor
  · intro h
    induction h with
    | done => exact ⟨[], [], .done, .nil, rfl⟩
    | @step key value entries r m r' hrep hadd _ ih =>
      obtain ⟨left, kept, hfill, hkeeps, hr'⟩ := ih
      cases hstore : store key value r.1 with
      | some stored =>
        rw [stores _ _ _ _ hstore, Except.map_eq_ok_iff] at hadd
        obtain ⟨slots, rfl, rfl⟩ := hadd
        exact ⟨left, kept, .field hrep hstore hfill, hkeeps, hr'⟩
      | none =>
        simp only [keeps _ _ _ hstore, Except.bind_eq_ok_iff, Except.pure_eq_ok_iff] at hadd
        obtain ⟨v, hv, rfl⟩ := hadd
        refine ⟨(key, value) :: left, (key, v) :: kept, .other hstore hfill,
          .cons ⟨rfl, hv⟩ hkeeps, ?_⟩
        rw [hr', List.reverse_cons, List.append_assoc]
        rfl
  · rintro ⟨left, kept, hfill, hkeeps, hr'⟩
    obtain ⟨s, extras⟩ := r
    obtain ⟨s', extras'⟩ := r'
    dsimp only at hfill hr'
    induction hfill generalizing kept extras with
    | done =>
      cases hkeeps
      cases hr'
      exact .done
    | @field key value _ _ s m _ hrep hstore _ ih =>
      refine .step (m := (m, extras)) hrep ?_ (ih kept hkeeps extras hr')
      rw [stores _ _ _ _ hstore]
      rfl
    | @other key value _ _ s _ hstore _ ih =>
      cases hkeeps with
      | @cons _ k _ kept hk hkeeps =>
        obtain ⟨name, v⟩ := k
        obtain ⟨rfl, hv⟩ := hk
        refine .step (m := (s, (key, v) :: extras))
          (known _ _ _ hstore) ?_ (ih kept hkeeps _ ?_)
        · rw [keeps _ _ _ hstore, hv]
          rfl
        · rw [hr', List.reverse_cons, List.append_assoc]
          rfl

end Rest

end Wire

end ApiSurface
