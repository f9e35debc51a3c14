import ApiSurface.Proofs.Naming.Grammar

/-!
# Paths of symbol graph files

Whether a path is taken for that of a symbol graph file is decided by the end of its name
alone, without reading the name. The two agree but for one kind of name: a name with an
empty segment is taken for one of a symbol graph file, and cannot be read. The bare suffix,
of which the only segment is empty, is not taken for one either.

## Main definitions

* `Path.nameText?`: the text of the name that a path ends in.
* `GraphName.LacksSegment`: names with an empty segment among several.

## Main results

* `GraphName.isGraphPath_iff`: the paths that are taken for those of symbol graph files, by
  how their names are read.
* `GraphName.fault_of_isGraphPath`: why the name of such a path cannot be read.
-/

namespace ApiSurface

/-- The text of the name that a path ends in. -/
def Path.nameText? (path : Path) : Option String := path.fileName?.bind Text.ofBytes?

namespace GraphName

variable {s : String} {path : Path} {fault : NameFault}

/-! ### Empty segments -/

/-- Whether a text with the suffix has several segments in front of it, and an empty
one among them. -/
def LacksSegment (s : String) : Prop :=
  ∃ segments : List String, 2 ≤ segments.length ∧ "" ∈ segments ∧
    (∀ segment ∈ segments, separator ∉ segment.toList) ∧
    s.toList = [separator].intercalate (segments.map String.toList) ++ suffix.toList

/-- The only segment of the bare suffix is empty. -/
theorem ofText_suffix : ofText suffix = .error (.emptySegment suffix) := by decide +kernel

/-- A text that is refused for an empty segment has one among several, unless it is the
bare suffix. -/
theorem lacksSegment_of_ofText (hlonger : s ≠ suffix) (hsuffix : suffix.toList <:+ s.toList)
    (h : ofText s = .error fault) : LacksSegment s := by
  obtain ⟨stem, hstem⟩ := hsuffix
  rw [ofText, List.isSuffixOf?_eq_some_iff_append_eq.mpr hstem] at h
  dsimp only at h
  split at h
  next hempty =>
    rw [isEmpty_or_any_iff] at hempty
    obtain ⟨-, hrun, hparts⟩ :=
      Text.allPieces_eq_iff.mp (rfl : Text.allPieces separator stem = _)
    rw [Text.allPieces] at hrun hparts
    generalize Text.pieces separator stem = pieces at hempty hrun hparts
    refine ⟨(pieces.1 :: pieces.2).map String.ofList, ?_,
      List.mem_map.mpr ⟨[], hempty, rfl⟩, ?_, ?_⟩
    · rw [List.length_map, List.length_cons]
      have hlater : pieces.2 ≠ [] := by
        intro hnil
        rw [hnil, List.mem_singleton] at hempty
        rw [hnil, ← hempty, List.intercalate_singleton] at hrun
        rw [← hrun, List.nil_append] at hstem
        exact hlonger (String.toList_injective hstem.symm)
      have := List.length_pos_of_ne_nil hlater
      omega
    · rw [List.forall_mem_map]
      intro part hpart
      rw [String.toList_ofList]
      exact hparts part hpart
    · rw [List.map_map, String.toList_comp_ofList, List.map_id, hrun, hstem]
  · cases h

/-! ### Paths -/

/-- The name of a path is read from its text. -/
theorem ofPath_of_nameText (h : path.nameText? = some s) : ofPath path = ofText s := by
  obtain ⟨bytes, hbytes, hs⟩ := Option.bind_eq_some_iff.mp h
  rw [ofPath, hbytes]
  dsimp only
  rw [hs]

/-- A path has a name that can be read only if its name is a text. -/
theorem exists_nameText_of_ofPath {name : GraphName} (h : ofPath path = .ok name) :
    ∃ s, path.nameText? = some s ∧ ofText s = .ok name := by
  obtain ⟨first, later, ⟨bytes, s, hbytes, hs, hspells⟩, rfl⟩ := ofPath_eq_ok_iff.mp h
  refine ⟨s, ?_, ofText_of_spells hspells⟩
  rw [Path.nameText?, hbytes, Option.bind_some, hs]

/-- A path is taken for that of a symbol graph file if its name has the
suffix and is longer. -/
theorem isGraphPath_iff_suffix : path.isGraphPath = true ↔
    ∃ s, path.nameText? = some s ∧ suffix.toList <:+ s.toList ∧ s ≠ suffix := by
  rw [Path.isGraphPath, ← Path.nameText?]
  cases path.nameText? with
  | none => simp
  | some s => simp

/-- The name of such a path cannot be read only for an empty segment among several. -/
theorem fault_of_isGraphPath (hpath : path.isGraphPath = true)
    (h : ofPath path = .error fault) :
    ∃ s, path.nameText? = some s ∧ fault = .emptySegment s ∧ LacksSegment s := by
  obtain ⟨s, hs, hsuffix, hlonger⟩ := isGraphPath_iff_suffix.mp hpath
  rw [ofPath_of_nameText hs] at h
  exact ⟨s, hs, fault_of_suffix hsuffix h, lacksSegment_of_ofText hlonger hsuffix h⟩

/-- A text with the suffix that is not the suffix is longer. -/
theorem length_lt_of_suffix (hsuffix : suffix.toList <:+ s.toList) :
    suffix.length < s.length ↔ s ≠ suffix := by
  rw [← String.length_toList, ← String.length_toList]
  constructor
  · rintro hlt rfl
    exact Nat.lt_irrefl _ hlt
  · intro hne
    refine Nat.lt_of_le_of_ne hsuffix.length_le fun heq => hne ?_
    exact String.toList_injective (hsuffix.eq_of_length heq).symm

/-- A path is taken for that of a symbol graph file exactly if its name is read, or refused
for an empty segment although it is longer than the bare suffix. -/
theorem isGraphPath_iff : path.isGraphPath = true ↔ (∃ name, ofPath path = .ok name) ∨
    ∃ s, path.nameText? = some s ∧ ofPath path = .error (.emptySegment s) ∧
      suffix.length < s.length := by
  constructor
  · intro hpath
    obtain ⟨s, hs, hsuffix, hlonger⟩ := isGraphPath_iff_suffix.mp hpath
    cases h : ofPath path with
    | ok name => exact .inl ⟨name, rfl⟩
    | error fault =>
      rw [ofPath_of_nameText hs] at h
      rw [fault_of_suffix hsuffix h]
      exact .inr ⟨s, hs, rfl, (length_lt_of_suffix hsuffix).mpr hlonger⟩
  · intro h
    rw [isGraphPath_iff_suffix]
    obtain ⟨name, hname⟩ | ⟨s, hs, hfault, hlonger⟩ := h
    · obtain ⟨s, hs, hname⟩ := exists_nameText_of_ofPath hname
      refine ⟨s, hs, ⟨_, (spells_of_ofText hname).1.text.symm⟩, ?_⟩
      rintro rfl
      cases ofText_suffix.symm.trans hname
    · rw [ofPath_of_nameText hs] at hfault
      have hsuffix : suffix.toList <:+ s.toList := by
        by_contra hmissing
        cases hfault.symm.trans (missing_iff.mpr hmissing)
      exact ⟨s, hs, hsuffix, (length_lt_of_suffix hsuffix).mp hlonger⟩

end GraphName

end ApiSurface
