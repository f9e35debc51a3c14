import ApiSurface.Naming.GraphName
import Mathlib.Data.List.Basic

/-!
# Reading names

A run falls into pieces in exactly one way, so the name of a symbol graph file has its
segments by itself, and reading it only finds them.

## Main results

* `Text.allPieces_eq_iff`: the pieces of a run.
* `GraphName.ofText_eq_ok_iff`, `GraphName.ofPath_eq_ok_iff`: a name is read as the one
  with its segments.
-/

namespace ApiSurface

/-! ### Pieces -/

namespace Text

variable {α : Type} [DecidableEq α] {separator : α} {run : List α} {parts : List (List α)}

/-- The pieces of a run are found by splitting it at its separators. -/
theorem allPieces_eq_splitOn (separator : α) (run : List α) :
    allPieces separator run = run.splitOn separator := by
  induction run with
  | nil => rfl
  | cons a rest ih =>
    rw [List.splitOn_cons_eq_if_modifyHead, ← ih]
    by_cases ha : a = separator <;> simp [allPieces, pieces, ha]

/-- There is no separator in a piece. -/
theorem separator_notMem_of_mem_allPieces {part : List α}
    (h : part ∈ allPieces separator run) : separator ∉ part := by
  induction run generalizing part with
  | nil =>
    rw [List.mem_singleton.mp h]
    exact List.not_mem_nil
  | cons a rest ih =>
    obtain ⟨hfirst, hlater⟩ := List.forall_mem_cons.mp fun _ => ih
    rw [allPieces, pieces] at h
    dsimp only at h
    split at h
    · rcases List.mem_cons.mp h with rfl | h
      · exact List.not_mem_nil
      · exact ih h
    · next ha =>
      rcases List.mem_cons.mp h with rfl | h
      · exact List.not_mem_cons_of_ne_of_not_mem (Ne.symm ha) hfirst
      · exact hlater part h

/-- Some parts are the pieces of a run if the run is made of them, with separators in
between and nowhere else. -/
theorem allPieces_eq_iff : allPieces separator run = parts ↔
    parts ≠ [] ∧ [separator].intercalate parts = run ∧ ∀ part ∈ parts, separator ∉ part := by
  constructor
  · rintro rfl
    refine ⟨List.cons_ne_nil _ _, ?_, fun part => separator_notMem_of_mem_allPieces⟩
    rw [allPieces_eq_splitOn, List.intercalate_splitOn]
  · rintro ⟨hne, rfl, hparts⟩
    rw [allPieces_eq_splitOn, List.splitOn_intercalate _ hparts hne]

end Text

/-! ### Names -/

/-- Whether a text is the name of a symbol graph file with some segments: none of them is
empty, and the separator stands between them only. -/
structure GraphName.Spells (segments : List String) (s : String) : Prop where
  text : s.toList = [separator].intercalate (segments.map String.toList) ++ suffix.toList
  apart : ∀ segment ∈ segments, segment ≠ "" ∧ separator ∉ segment.toList

/-- Whether the name that a path ends in is that of a symbol graph file with some segments. -/
def Path.HasSegments (path : Path) (segments : List String) : Prop :=
  ∃ bytes s, path.fileName? = some bytes ∧ Text.ofBytes? bytes = some s ∧
    GraphName.Spells segments s

namespace GraphName

/-- Whether one of the pieces of a name is empty. -/
theorem isEmpty_or_any_iff {first : List Char} {later : List (List Char)} :
    (first.isEmpty || later.any List.isEmpty) = true ↔ [] ∈ first :: later := by
  rw [← List.any_cons, List.any_eq_true]
  simp

/-- A name has been read from a text that spells its segments. -/
theorem exists_spells_of_ofText {s : String} {name : GraphName} (h : ofText s = .ok name) :
    ∃ first later, Spells (first :: later) s ∧ ofSegments first later = name := by
  rw [ofText] at h
  split at h
  · cases h
  next stem hstem =>
  obtain ⟨-, hrun, hparts⟩ :=
    Text.allPieces_eq_iff.mp (rfl : Text.allPieces separator stem = _)
  rw [Text.allPieces] at hrun hparts
  generalize Text.pieces separator stem = pieces at h hrun hparts
  obtain ⟨first, later⟩ := pieces
  dsimp only at h hrun hparts
  split at h
  · cases h
  next hempty =>
  rw [isEmpty_or_any_iff] at hempty
  cases h
  refine ⟨String.ofList first, later.map String.ofList, ?_, rfl⟩
  rw [← List.map_cons]
  constructor
  case text =>
    rw [List.map_map, String.toList_comp_ofList, List.map_id, hrun]
    exact (List.isSuffixOf?_eq_some_iff_append_eq.mp hstem).symm
  case apart =>
    rw [List.forall_mem_map]
    intro part hpart
    rw [String.toList_ofList, ne_eq, String.ofList_eq_empty_iff]
    exact ⟨ne_of_mem_of_not_mem hpart hempty, hparts part hpart⟩

/-- A text that spells some segments is read as the name that has them. -/
theorem ofText_of_spells {s first : String} {later : List String}
    (h : Spells (first :: later) s) : ofText s = .ok (ofSegments first later) := by
  have hstem := List.isSuffixOf?_eq_some_iff_append_eq.mpr h.text.symm
  have hparts : ∀ part ∈ (first :: later).map String.toList, separator ∉ part :=
    List.forall_mem_map.mpr fun segment hsegment => (h.apart segment hsegment).2
  have hempty : [] ∉ (first :: later).map String.toList := fun hmem => by
    obtain ⟨segment, hsegment, hnil⟩ := List.mem_map.mp hmem
    exact (h.apart segment hsegment).1 (String.toList_eq_nil_iff.mp hnil)
  have hpieces := Text.allPieces_eq_iff.mpr ⟨List.cons_ne_nil _ _, rfl, hparts⟩
  rw [Text.allPieces] at hpieces
  obtain ⟨hfirst, hlater⟩ := List.cons.inj hpieces
  rw [ofText, hstem]
  dsimp only
  rw [if_neg ?_, List.map_cons, hfirst, hlater, String.ofList_toList, List.map_map,
    String.ofList_comp_toList, List.map_id]
  rw [isEmpty_or_any_iff, List.map_cons, hfirst, hlater]
  exact hempty

/-- A text is read as the name with the segments that it spells. -/
theorem ofText_eq_ok_iff {s : String} {name : GraphName} :
    ofText s = .ok name ↔ ∃ first later, Spells (first :: later) s ∧
      ofSegments first later = name := by
  constructor
  · exact exists_spells_of_ofText
  · rintro ⟨first, later, hspells, rfl⟩
    exact ofText_of_spells hspells

/-- The name that a path ends in is read as the one with its segments. -/
theorem ofPath_eq_ok_iff {path : Path} {name : GraphName} :
    ofPath path = .ok name ↔
      ∃ first later, path.HasSegments (first :: later) ∧ ofSegments first later = name := by
  simp only [Path.HasSegments]
  rw [ofPath]
  cases path.fileName? with
  | none => simp
  | some bytes =>
    cases hs : Text.ofBytes? bytes with
    | none => simp [hs]
    | some s => simp [hs, ofText_eq_ok_iff]

end GraphName

end ApiSurface
