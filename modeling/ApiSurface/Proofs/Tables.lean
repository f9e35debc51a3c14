import ApiSurface.Table
import Mathlib.Data.Finset.Card
import Mathlib.Data.List.Nodup
import Mathlib.Data.List.Perm.Basic
import Mathlib.Tactic.Tauto

/-!
# Tables as finite maps

A table is known by what it has under each key. The lemmas here say what looking up gives
after an entry has been added, that tables which give the same everywhere are equal, and
that the entries of a table are the one under some key together with the others.

## Main results

* `Table.get?_insert`, `Table.mem_entries_iff`: looking up.
* `Table.ext_get?`: tables are equal if looking up gives the same for all keys.
* `Table.insert_entries_perm`, `Table.entries_perm`: the entries of a table around some key.
* `Table.ofList_entries_perm`: a table collected from entries with
  distinct keys has these entries.
* `Table.get?_ofList`: of several entries with one key the last one counts.
-/

namespace ApiSurface

open Std

/-! ### Increasing lists -/

section Increasing

variable {α β : Type} {cmp : β → β → Ordering}

/-- What increases does not stay the same. -/
theorem ne_of_increasing [ReflCmp cmp] {a b : β} (h : cmp a b = .lt) : a ≠ b := by
  rintro rfl
  have hself : cmp a a = .eq := ReflCmp.compare_self
  rw [hself] at h
  cases h

/-- Lists that increase by some measure are the same if they only differ in their order. -/
theorem eq_of_increasing [OrientedCmp cmp] (f : α → β) {as bs : List α} (perm : as.Perm bs)
    (ha : as.Pairwise fun a b => cmp (f a) (f b) = .lt)
    (hb : bs.Pairwise fun a b => cmp (f a) (f b) = .lt) : as = bs := by
  refine perm.eq_of_pairwise ?_ ha hb
  intro a b _ _ hab hba
  rw [OrientedCmp.gt_of_lt hab] at hba
  cases hba

end Increasing

variable {κ ν : Type} [Ord κ]

/-! ### Entries in key order -/

/-- The entries with other keys than a given one. -/
def entriesBesides (key : κ) (entries : List (κ × ν)) : List (κ × ν) :=
  entries.filter fun entry => compare key entry.1 != .eq

section Entries

variable {key : κ} {value : ν} {entries : List (κ × ν)}

/-- An entry with another key stays. -/
theorem entriesBesides_cons_of_ne {head : κ × ν} {rest : List (κ × ν)}
    (h : compare key head.1 ≠ .eq) :
    entriesBesides key (head :: rest) = head :: entriesBesides key rest :=
  List.filter_cons_of_pos (by simpa using h)

/-- If a key comes before all entries, all entries have other keys. -/
theorem entriesBesides_of_lt (h : ∀ entry ∈ entries, compare key entry.1 = .lt) :
    entriesBesides key entries = entries := by
  refine List.filter_eq_self.mpr fun entry hentry => ?_
  rw [h entry hentry]
  rfl

variable [TransOrd κ]

/-- A key before the first entry comes before all others. -/
theorem KeysIncrease.lt_of_lt {head : κ × ν} {rest : List (κ × ν)}
    (h : KeysIncrease (head :: rest)) (hkey : compare key head.1 = .lt) :
    ∀ entry ∈ head :: rest, compare key entry.1 = .lt := by
  obtain ⟨above, -⟩ := List.pairwise_cons.mp h
  exact List.forall_mem_cons.mpr ⟨hkey, fun entry hentry =>
    TransCmp.lt_trans hkey (above entry hentry)⟩

/-- The key of the first entry comes before all others. -/
theorem KeysIncrease.lt_of_eq {head : κ × ν} {rest : List (κ × ν)}
    (h : KeysIncrease (head :: rest)) (hkey : compare key head.1 = .eq) :
    ∀ entry ∈ rest, compare key entry.1 = .lt := by
  obtain ⟨above, -⟩ := List.pairwise_cons.mp h
  exact fun entry hentry => TransCmp.lt_of_eq_of_lt hkey (above entry hentry)

/-- If the first entry has a key, the later ones have other keys. -/
theorem KeysIncrease.entriesBesides_cons {head : κ × ν} {rest : List (κ × ν)}
    (h : KeysIncrease (head :: rest)) (hkey : compare key head.1 = .eq) :
    entriesBesides key (head :: rest) = rest := by
  rw [entriesBesides, List.filter_cons_of_neg (by simp [hkey])]
  exact entriesBesides_of_lt (h.lt_of_eq hkey)

/-- A later entry has another key than the first. -/
theorem KeysIncrease.ne_of_mem {rest : List (κ × ν)} (h : KeysIncrease ((key, value) :: rest))
    {entry : κ × ν} (hentry : entry ∈ rest) : entry.1 ≠ key :=
  (ne_of_increasing ((List.pairwise_cons.mp h).1 entry hentry)).symm

/-- The key of the first entry is not that of a later one. -/
theorem KeysIncrease.lookupEntry_rest {rest : List (κ × ν)}
    (h : KeysIncrease ((key, value) :: rest)) : lookupEntry key rest = none := by
  have hlt := h.lt_of_eq ReflCmp.compare_self
  clear h
  induction rest with
  | nil => rfl
  | cons head rest ih =>
    obtain ⟨hhead, hrest⟩ := List.forall_mem_cons.mp hlt
    rw [lookupEntry, hhead, if_neg (by decide), ih hrest]

/-- Looking up after an entry has been added. -/
theorem lookupEntry_insertEntry (key' : κ) :
    lookupEntry key' (insertEntry key value entries) =
      if compare key' key = .eq then some value else lookupEntry key' entries := by
  induction entries with
  | nil => rfl
  | cons head rest ih =>
    rw [insertEntry]
    cases h : compare key head.1 with
    | lt => rfl
    | eq =>
      have hhead : compare key' head.1 = compare key' key := (TransCmp.congr_right h).symm
      simp only [lookupEntry, hhead]
      split <;> rfl
    | gt =>
      simp only [lookupEntry, ih]
      by_cases hkey : compare key' key = .eq
      · have hhead : compare key' head.1 = .gt := (TransCmp.congr_left hkey).trans h
        simp [hkey, hhead]
      · simp [hkey]

/-- After an entry has been added, the entries are that one and those with other keys. -/
theorem insertEntry_perm (h : KeysIncrease entries) :
    (insertEntry key value entries).Perm ((key, value) :: entriesBesides key entries) := by
  induction entries with
  | nil => exact .refl _
  | cons head rest ih =>
    rw [insertEntry]
    cases hhead : compare key head.1 with
    | lt => rw [entriesBesides_of_lt (h.lt_of_lt hhead)]
    | eq => rw [h.entriesBesides_cons hhead]
    | gt =>
      rw [entriesBesides_cons_of_ne (by simp [hhead])]
      exact ((ih (List.pairwise_cons.mp h).2).cons head).trans (.swap _ _ _)

variable [LawfulEqOrd κ]

/-- The entries are the one with a key, if there is one, and those with other keys. -/
theorem KeysIncrease.perm_lookupEntry (h : KeysIncrease entries) (key : κ) :
    entries.Perm ((lookupEntry key entries).toList.map (key, ·) ++
      entriesBesides key entries) := by
  induction entries with
  | nil => exact .refl _
  | cons head rest ih =>
    by_cases hhead : compare key head.1 = .eq
    · rw [lookupEntry, if_pos hhead, h.entriesBesides_cons hhead]
      obtain rfl := LawfulEqCmp.eq_of_compare hhead
      exact .refl _
    · rw [lookupEntry, if_neg hhead, entriesBesides_cons_of_ne hhead]
      exact ((ih (List.pairwise_cons.mp h).2).cons head).trans List.perm_middle.symm

/-- An entry is among the entries exactly if looking its key up gives its value. -/
theorem KeysIncrease.mem_iff (h : KeysIncrease entries) :
    (key, value) ∈ entries ↔ lookupEntry key entries = some value := by
  rw [(h.perm_lookupEntry key).mem_iff, List.mem_append]
  constructor
  · rintro (hmem | hmem)
    · obtain ⟨value', hvalue, heq⟩ := List.mem_map.mp hmem
      cases heq
      exact Option.mem_toList.mp hvalue
    · have hself := (List.mem_filter.mp hmem).2
      simp [ReflCmp.compare_self] at hself
  · intro hlookup
    exact .inl (List.mem_map.mpr ⟨value, by simp [hlookup], rfl⟩)

end Entries

/-! ### Tables -/

namespace Table

/-- The keys of a table strictly increase. -/
theorem keys_increase (t : Table κ ν) : t.keys.Pairwise fun a b => compare a b = .lt :=
  List.pairwise_map.mpr t.increasing

variable [TransOrd κ]

/-- Looking up after an entry has been put into a table. -/
theorem get?_insert (t : Table κ ν) (key : κ) (value : ν) (key' : κ) :
    (t.insert key value).get? key' =
      if compare key' key = .eq then some value else t.get? key' :=
  lookupEntry_insertEntry key'

/-- After an entry has been put into a table, the entries are that one and those
with other keys. -/
theorem insert_entries_perm (t : Table κ ν) (key : κ) (value : ν) :
    (t.insert key value).entries.Perm ((key, value) :: entriesBesides key t.entries) :=
  insertEntry_perm t.increasing

/-- What stands in a table after some entries have been put into it is one of these or stood
there before. -/
theorem mem_of_mem_foldl_insert {pairs : List (κ × ν)} {t : Table κ ν} {entry : κ × ν}
    (h : entry ∈ (pairs.foldl (fun t pair => t.insert pair.1 pair.2) t).entries) :
    entry ∈ pairs ∨ entry ∈ t.entries := by
  induction pairs generalizing t with
  | nil => exact .inr h
  | cons pair pairs ih =>
    rcases ih h with hlater | hinsert
    · exact .inl (List.mem_cons_of_mem _ hlater)
    · rcases mem_insertEntry hinsert with rfl | hold
      · exact .inl List.mem_cons_self
      · exact .inr hold

/-- What stands in a table is one of the entries that it was collected from. -/
theorem mem_of_mem_ofList {pairs : List (κ × ν)} {entry : κ × ν}
    (h : entry ∈ (ofList pairs).entries) : entry ∈ pairs :=
  (mem_of_mem_foldl_insert h).resolve_right List.not_mem_nil

/-- No key stands twice in a table. -/
theorem nodup_keys (t : Table κ ν) : t.keys.Nodup := t.keys_increase.imp ne_of_increasing

/-- No entry stands twice in a table. -/
theorem nodup_entries (t : Table κ ν) : t.entries.Nodup := List.Nodup.of_map _ t.nodup_keys

variable [LawfulEqOrd κ]

/-- Looking up the key of an entry that has just been put into a table. -/
@[simp] theorem get?_insert_self (t : Table κ ν) (key : κ) (value : ν) :
    (t.insert key value).get? key = some value := by
  rw [get?_insert, if_pos ReflCmp.compare_self]

/-- Looking up another key than that of an entry that has just been put into a table. -/
theorem get?_insert_of_ne (t : Table κ ν) {key key' : κ} (value : ν) (h : key' ≠ key) :
    (t.insert key value).get? key' = t.get? key' := by
  rw [get?_insert, if_neg fun heq => h (LawfulEqCmp.eq_of_compare heq)]

/-- The entries of a table are what looking up gives. -/
theorem mem_entries_iff {t : Table κ ν} {key : κ} {value : ν} :
    (key, value) ∈ t.entries ↔ t.get? key = some value :=
  t.increasing.mem_iff

/-- The keys of a table are those under which looking up gives a value. -/
theorem mem_keys_iff {t : Table κ ν} {key : κ} :
    key ∈ t.keys ↔ ∃ value, t.get? key = some value := by
  simp only [keys, List.mem_map, Prod.exists, exists_and_right, exists_eq_right,
    mem_entries_iff]

omit [LawfulEqOrd κ] in
/-- A table whose keys are the members of a list has an entry for each distinct one of them. -/
theorem size_eq_card [DecidableEq κ] {t : Table κ ν} {members : List κ}
    (h : ∀ key, key ∈ t.keys ↔ key ∈ members) : t.size = members.toFinset.card := by
  have hkeys : t.keys.toFinset = members.toFinset := by
    ext key
    rw [List.mem_toFinset, List.mem_toFinset, h]
  rw [← hkeys, List.toFinset_card_of_nodup t.nodup_keys, keys, List.length_map, size]

/-- Looking up gives nothing under keys that a table does not have. -/
theorem get?_eq_none_iff {t : Table κ ν} {key : κ} : t.get? key = none ↔ key ∉ t.keys := by
  rw [mem_keys_iff, ← Option.isSome_iff_exists, Option.not_isSome_iff_eq_none]

/-- Tables are equal if looking up gives the same for all keys. -/
theorem ext_get? {s t : Table κ ν} (h : ∀ key, s.get? key = t.get? key) : s = t := by
  have hperm : s.entries.Perm t.entries := by
    refine (List.perm_ext_iff_of_nodup s.nodup_entries t.nodup_entries).mpr fun entry => ?_
    rw [mem_entries_iff, mem_entries_iff, h]
  exact Table.ext (eq_of_increasing Prod.fst hperm s.increasing t.increasing)

/-- Tables have the same keys if looking up gives a value under the same ones. -/
theorem keys_eq_of_get? {ν' : Type} {s : Table κ ν} {t : Table κ ν'}
    (h : ∀ key, (s.get? key).isSome = (t.get? key).isSome) : s.keys = t.keys := by
  have hperm : s.keys.Perm t.keys := by
    refine (List.perm_ext_iff_of_nodup s.nodup_keys t.nodup_keys).mpr fun key => ?_
    rw [mem_keys_iff, mem_keys_iff, ← Option.isSome_iff_exists, ← Option.isSome_iff_exists, h]
  exact eq_of_increasing id hperm s.keys_increase t.keys_increase

/-- Putting a value under a key where it is already changes nothing. -/
theorem insert_eq_self {t : Table κ ν} {key : κ} {value : ν} (h : t.get? key = some value) :
    t.insert key value = t := by
  refine ext_get? fun key' => ?_
  rw [get?_insert]
  split
  · next heq => rw [LawfulEqCmp.eq_of_compare heq, h]
  · rfl

/-- Of two values that are put under a key the later one counts. -/
theorem insert_insert (t : Table κ ν) (key : κ) (value value' : ν) :
    (t.insert key value).insert key value' = t.insert key value' := by
  refine ext_get? fun key' => ?_
  simp only [get?_insert]
  split <;> rfl

/-- Values that are put under different keys are put there in either order. -/
theorem insert_comm (t : Table κ ν) {key key' : κ} (h : key ≠ key') (value value' : ν) :
    (t.insert key value).insert key' value' = (t.insert key' value').insert key value := by
  refine ext_get? fun other => ?_
  by_cases hkey : other = key
  · subst hkey
    rw [get?_insert_of_ne _ _ h, get?_insert_self, get?_insert_self]
  · by_cases hkey' : other = key'
    · subst hkey'
      rw [get?_insert_self, get?_insert_of_ne _ _ hkey, get?_insert_self]
    · rw [get?_insert_of_ne _ _ hkey', get?_insert_of_ne _ _ hkey, get?_insert_of_ne _ _ hkey,
        get?_insert_of_ne _ _ hkey']

/-- The entries of a table are the one with a key, if there is one, and
those with other keys. -/
theorem entries_perm (t : Table κ ν) (key : κ) :
    t.entries.Perm ((t.get? key).toList.map (key, ·) ++ entriesBesides key t.entries) :=
  t.increasing.perm_lookupEntry key

/-- After an entry has been put into a table that did not have its key, it stands among
those before. -/
theorem insert_entries_perm_of_none {t : Table κ ν} {key : κ} (h : t.get? key = none)
    (value : ν) : (t.insert key value).entries.Perm ((key, value) :: t.entries) := by
  have hbesides := t.entries_perm key
  rw [h] at hbesides
  exact (t.insert_entries_perm key value).trans (hbesides.symm.cons _)

/-- Entries with distinct keys that are put into a table which has none of them stand among
those before. -/
theorem foldl_insert_entries_perm {pairs : List (κ × ν)}
    (distinct : pairs.Pairwise fun a b => a.1 ≠ b.1) {t : Table κ ν}
    (fresh : ∀ pair ∈ pairs, t.get? pair.1 = none) :
    (pairs.foldl (fun t pair => t.insert pair.1 pair.2) t).entries.Perm (pairs ++
      t.entries) := by
  induction pairs generalizing t with
  | nil => exact .refl _
  | cons pair pairs ih =>
    obtain ⟨hother, hdistinct⟩ := List.pairwise_cons.mp distinct
    obtain ⟨hpair, hpairs⟩ := List.forall_mem_cons.mp fresh
    have hfresh : ∀ later ∈ pairs, (t.insert pair.1 pair.2).get? later.1 = none := by
      intro later hlater
      rw [get?_insert_of_ne _ _ (hother later hlater).symm, hpairs later hlater]
    refine (ih hdistinct hfresh).trans ?_
    exact ((insert_entries_perm_of_none hpair pair.2).append_left pairs).trans List.perm_middle

/-- A table collected from entries with distinct keys has these entries. -/
theorem ofList_entries_perm {pairs : List (κ × ν)}
    (distinct : pairs.Pairwise fun a b => a.1 ≠ b.1) : (ofList pairs).entries.Perm pairs := by
  have hperm := foldl_insert_entries_perm distinct (t := empty) fun _ _ => rfl
  rwa [show (empty : Table κ ν).entries = [] from rfl, List.append_nil] at hperm

/-- Entries with distinct keys are collected into the same table in any order. -/
theorem ofList_eq_of_perm {pairs pairs' : List (κ × ν)}
    (distinct : pairs.Pairwise fun a b => a.1 ≠ b.1) (perm : pairs.Perm pairs') :
    ofList pairs = ofList pairs' := by
  have hperm := ofList_entries_perm distinct
  have hperm' := ofList_entries_perm (perm.pairwise distinct Ne.symm)
  exact Table.ext (eq_of_increasing Prod.fst (hperm.trans (perm.trans hperm'.symm))
    (ofList pairs).increasing (ofList pairs').increasing)

/-- A table is collected from its own entries. -/
theorem ofList_entries (t : Table κ ν) : ofList t.entries = t := by
  have hperm := ofList_entries_perm (t.increasing.imp ne_of_increasing)
  exact Table.ext (eq_of_increasing Prod.fst hperm (ofList t.entries).increasing t.increasing)

/-- The keys after an entry has been put into a table. -/
theorem mem_keys_insert {t : Table κ ν} {key key' : κ} {value : ν} :
    key' ∈ (t.insert key value).keys ↔ key' = key ∨ key' ∈ t.keys := by
  rw [mem_keys_iff, mem_keys_iff]
  by_cases hkey : key' = key
  · rw [hkey, get?_insert_self]
    exact iff_of_true ⟨value, rfl⟩ (.inl rfl)
  · rw [get?_insert_of_ne _ _ hkey, or_iff_right hkey]

/-- The keys after some entries have been put into a table. -/
theorem mem_keys_foldl_insert {pairs : List (κ × ν)} {t : Table κ ν} {key : κ} :
    key ∈ (pairs.foldl (fun t pair => t.insert pair.1 pair.2) t).keys ↔
      key ∈ pairs.map Prod.fst ∨ key ∈ t.keys := by
  induction pairs generalizing t with
  | nil => simp
  | cons pair pairs ih =>
    rw [List.foldl_cons, ih, mem_keys_insert, List.map_cons, List.mem_cons]
    tauto

end Table

/-! ### The last of several values -/

/-- The last value under a key in a list of entries in any order. -/
def lastUnder [DecidableEq κ] (key : κ) : List (κ × ν) → Option ν
  | [] => none
  | entry :: rest => (lastUnder key rest).or (if entry.1 = key then some entry.2 else none)

section LastUnder

omit [Ord κ]

variable [DecidableEq κ] {key : κ} {value : ν} {entries : List (κ × ν)}

/-- The last value under a key stands there. -/
theorem mem_of_lastUnder (h : lastUnder key entries = some value) :
    (key, value) ∈ entries := by
  induction entries with
  | nil => cases h
  | cons entry rest ih =>
    rw [lastUnder, Option.or_eq_some_iff] at h
    rcases h with hlater | ⟨-, hentry⟩
    · exact List.mem_cons_of_mem _ (ih hlater)
    · split at hentry
      case isTrue hkey =>
        cases hentry
        subst hkey
        exact List.mem_cons_self
      case isFalse => cases hentry

/-- A key has a last value if it has a value. -/
theorem exists_lastUnder_iff :
    (∃ value, lastUnder key entries = some value) ↔ key ∈ entries.map Prod.fst := by
  constructor
  · rintro ⟨value, hvalue⟩
    exact List.mem_map_of_mem (mem_of_lastUnder hvalue)
  · intro h
    induction entries with
    | nil => cases h
    | cons entry rest ih =>
      rw [lastUnder]
      rcases hrest : lastUnder key rest with _ | later
      · obtain rfl | hlater := List.mem_cons.mp h
        · exact ⟨entry.2, by simp⟩
        · obtain ⟨later, hsome⟩ := ih hlater
          rw [hrest] at hsome
          cases hsome
      · exact ⟨later, rfl⟩

/-- The last value under a key, when all values are changed alike. -/
theorem lastUnder_map {ν' : Type} (f : ν → ν') (key : κ) (entries : List (κ × ν)) :
    lastUnder key (entries.map fun entry => (entry.1, f entry.2)) =
      (lastUnder key entries).map f := by
  induction entries with
  | nil => rfl
  | cons entry rest ih =>
    rw [List.map_cons, lastUnder, lastUnder, ih, Option.map_or]
    split <;> rfl

/-- The last value under a key is not changed by leaving out other keys. -/
theorem lastUnder_filter {p : κ → Bool} (hkey : p key) :
    lastUnder key (entries.filter fun entry => p entry.1) = lastUnder key entries := by
  induction entries with
  | nil => rfl
  | cons entry rest ih =>
    rw [List.filter_cons]
    split
    case isTrue => rw [lastUnder, lastUnder, ih]
    case isFalse hentry =>
      have hne : entry.1 ≠ key := by
        rintro rfl
        exact hentry hkey
      rw [lastUnder, if_neg hne, Option.or_none, ih]

end LastUnder

namespace Table

variable [TransOrd κ] [LawfulEqOrd κ] [DecidableEq κ]

/-- Looking up after some entries have been put into a table. -/
theorem get?_foldl_insert (pairs : List (κ × ν)) (t : Table κ ν) (key : κ) :
    (pairs.foldl (fun t pair => t.insert pair.1 pair.2) t).get? key =
      (lastUnder key pairs).or (t.get? key) := by
  induction pairs generalizing t with
  | nil => rfl
  | cons pair pairs ih =>
    rw [List.foldl_cons, ih, lastUnder, Option.or_assoc]
    by_cases hkey : pair.1 = key
    · rw [if_pos hkey, ← hkey, get?_insert_self]
      rfl
    · rw [if_neg hkey, get?_insert_of_ne _ _ (Ne.symm hkey)]
      rfl

/-- A table collected from entries has the last value under each key. -/
theorem get?_ofList (pairs : List (κ × ν)) (key : κ) :
    (ofList pairs).get? key = lastUnder key pairs := by
  rw [ofList, get?_foldl_insert]
  exact Option.or_none

end Table

/-! ### Sets -/

variable [TransOrd κ] [LawfulEqOrd κ] {members members' : List κ} {key : κ}

/-- The distinct members of a list are its members. -/
theorem mem_distinct : key ∈ distinct members ↔ key ∈ members := by
  rw [distinct, Table.ofList, Table.mem_keys_foldl_insert, List.map_map]
  simp [Table.keys, Table.empty]

/-- Lists have the same distinct members, in the same order, if they have the same members. -/
theorem distinct_eq_iff :
    distinct members = distinct members' ↔ ∀ key, key ∈ members ↔ key ∈ members' := by
  constructor
  · intro h key
    rw [← mem_distinct, h, mem_distinct]
  · intro h
    have hperm : (distinct members).Perm (distinct members') := by
      refine (List.perm_ext_iff_of_nodup (Table.nodup_keys _) (Table.nodup_keys _)).mpr
        fun key => ?_
      exact mem_distinct.trans ((h key).trans mem_distinct.symm)
    exact eq_of_increasing id hperm (Table.keys_increase _) (Table.keys_increase _)

end ApiSurface
