/-!
# Tables

A table is a finite map kept as the list of its entries in strictly increasing key order.
Two tables with the same entries are therefore the same value, whatever the order their
entries came in, and walking a table always meets its keys in increasing order.

## Main definitions

* `Table`: entries with strictly increasing keys.
* `Table.insert`, `Table.get?`, `Table.ofList`: adding an entry, looking one up, and collecting
  entries of which the last one with a key wins.
-/

namespace ApiSurface

open Std

/-! ### Entries in key order -/

/-- Adds an entry to a list in key order, in place of an entry with the same key if
there is one. -/
def insertEntry {κ ν : Type} [Ord κ] (key : κ) (value : ν) : List (κ × ν) → List (κ × ν)
  | [] => [(key, value)]
  | entry :: rest =>
    match compare key entry.1 with
    | .lt => (key, value) :: entry :: rest
    | .eq => (key, value) :: rest
    | .gt => entry :: insertEntry key value rest

/-- The value under a key in a list of entries. -/
def lookupEntry {κ ν : Type} [Ord κ] (key : κ) : List (κ × ν) → Option ν
  | [] => none
  | entry :: rest => if compare key entry.1 = .eq then some entry.2 else lookupEntry key rest

/-- Keys of the list strictly increase. -/
def KeysIncrease {κ ν : Type} [Ord κ] (entries : List (κ × ν)) : Prop :=
  entries.Pairwise fun a b => compare a.1 b.1 = .lt

/-- Every entry of an extended list is the new one or an old one. -/
theorem mem_insertEntry {κ ν : Type} [Ord κ] {key : κ} {value : ν} {entry : κ × ν}
    {entries : List (κ × ν)} (h : entry ∈ insertEntry key value entries) :
    entry = (key, value) ∨ entry ∈ entries := by
  induction entries with
  | nil => exact .inl (by simpa [insertEntry] using h)
  | cons head rest ih =>
    unfold insertEntry at h
    split at h
    · simpa using h
    · exact (List.mem_cons.1 h).imp id (List.mem_cons_of_mem _)
    · cases List.mem_cons.1 h with
      | inl here => exact .inr (by simp [here])
      | inr later => exact (ih later).imp id (List.mem_cons_of_mem _)

/-- Adding an entry keeps the keys increasing. -/
theorem KeysIncrease.insertEntry {κ ν : Type} [Ord κ] [TransOrd κ] {key : κ} {value : ν}
    {entries : List (κ × ν)} (h : KeysIncrease entries) :
    KeysIncrease (insertEntry key value entries) := by
  induction entries with
  | nil => simp [ApiSurface.insertEntry, KeysIncrease]
  | cons head rest ih =>
    obtain ⟨above, tail⟩ := List.pairwise_cons.1 h
    unfold ApiSurface.insertEntry
    split
    · next before =>
      refine List.pairwise_cons.2 ⟨fun entry mem => ?_, h⟩
      cases List.mem_cons.1 mem with
      | inl here => exact here ▸ before
      | inr later => exact TransCmp.lt_trans before (above entry later)
    · next same =>
      exact List.pairwise_cons.2
        ⟨fun entry mem => TransCmp.lt_of_eq_of_lt same (above entry mem), tail⟩
    · next after =>
      refine List.pairwise_cons.2 ⟨fun entry mem => ?_, ih tail⟩
      cases mem_insertEntry mem with
      | inl new => exact new ▸ OrientedCmp.gt_iff_lt.1 after
      | inr old => exact above entry old

/-! ### Tables -/

/-- A finite map: its entries, in strictly increasing key order. -/
structure Table (κ ν : Type) [Ord κ] where
  /-- The entries, each key once. -/
  entries : List (κ × ν)
  /-- Keys strictly increase along the entries. -/
  increasing : KeysIncrease entries

namespace Table

variable {κ ν : Type} [Ord κ]

/-- The table without entries. -/
def empty : Table κ ν := ⟨[], List.Pairwise.nil⟩

instance : Inhabited (Table κ ν) := ⟨empty⟩

/-- Two tables with the same entries are the same table. -/
@[ext] theorem ext {s t : Table κ ν} (h : s.entries = t.entries) : s = t := by
  cases s; cases t; cases h; rfl

/-- The number of entries. -/
def size (t : Table κ ν) : Nat := t.entries.length

/-- The keys, in increasing order. -/
def keys (t : Table κ ν) : List κ := t.entries.map Prod.fst

/-- The values, in the order of their keys. -/
def values (t : Table κ ν) : List ν := t.entries.map Prod.snd

/-- The value under a key, if the table has one. -/
def get? (t : Table κ ν) (key : κ) : Option ν := lookupEntry key t.entries

/-- Whether the table has a value under a key. -/
def contains (t : Table κ ν) (key : κ) : Bool := (t.get? key).isSome

variable [TransOrd κ]

/-- Puts a value under a key, in place of any value there. -/
def insert (t : Table κ ν) (key : κ) (value : ν) : Table κ ν :=
  ⟨insertEntry key value t.entries, t.increasing.insertEntry⟩

/-- Collects entries given in any order; of several with one key the last one counts. -/
def ofList (entries : List (κ × ν)) : Table κ ν :=
  entries.foldl (fun t entry => t.insert entry.1 entry.2) empty

/-- Replaces the value under a key by one made from what is there now. -/
def alter (t : Table κ ν) (key : κ) (next : Option ν → ν) : Table κ ν :=
  t.insert key (next (t.get? key))

end Table

/-! ### Sets -/

/-- The distinct members of a list, in increasing order. -/
def distinct {κ : Type} [Ord κ] [TransOrd κ] (members : List κ) : List κ :=
  (Table.ofList (members.map fun key => (key, ()))).keys

end ApiSurface
