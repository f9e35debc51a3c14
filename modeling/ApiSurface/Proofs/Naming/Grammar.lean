import ApiSurface.Naming.Role
import ApiSurface.Proofs.Naming.Names

/-!
# The grammar of names

The name of a symbol graph file is made of segments, with separators in between, and the
suffix. A text is read as a name exactly if it is made in this way. The name then has the
segments of the text, so the text can be written again from the name; how many there are
decides of which kind it is. A text that is not made in this way lacks the suffix or has an
empty segment, and the fault says which.

## Main results

* `GraphName.spells_of_ofText`, `GraphName.text_of_ofText`: the text that a name is read from.
* `GraphName.missing_iff`, `GraphName.fault_of_suffix`: why a text is not read as a name.
* `GraphName.ofText_obeysGrammar`: reading, on all texts.
-/

namespace ApiSurface.GraphName

variable {s : String} {name : GraphName}

/-! ### Names and their segments -/

/-- A name that is made of segments has these segments. -/
@[simp] theorem segments_ofSegments (first : String) (later : List String) :
    (ofSegments first later).segments = first :: later := by
  match later with
  | [] => rfl
  | [second] => rfl
  | second :: third :: rest =>
    rw [ofSegments, segments, List.cons_append, List.cons_append, List.dropLast_concat_getLast]

/-- Whether a name has as many segments as its kind asks for: a longer name has some
in the middle. -/
def IsProper : GraphName → Prop
  | main _ | extension _ _ => True
  | compound _ middle _ => middle ≠ []

/-- A name that is made of segments has as many as its kind asks for. -/
theorem isProper_ofSegments (first : String) (later : List String) :
    (ofSegments first later).IsProper := by
  match later with
  | [] => trivial
  | [second] => trivial
  | second :: third :: rest => exact List.cons_ne_nil _ _

/-- The kind of a name, by the number of its segments. -/
theorem kind_iff_of_isProper (h : name.IsProper) :
    ((∃ module, name = main module) ↔ name.segments.length = 1) ∧
      ((∃ extending extended, name = extension extending extended) ↔
        name.segments.length = 2) ∧
      ((∃ first middle last, name = compound first middle last) ↔
        3 ≤ name.segments.length) := by
  cases name with
  | main module => simp [segments]
  | extension extending extended => simp [segments]
  | compound first middle last =>
    have hmiddle : 0 < middle.length := List.length_pos_of_ne_nil h
    simp only [segments, List.length_append, List.length_cons, List.length_nil]
    refine ⟨iff_of_false nofun (by omega), iff_of_false nofun (by omega),
      iff_of_true ⟨_, _, _, rfl⟩ ?_⟩
    omega

/-- A text that spells the segments of a name is the one that is written for it. -/
theorem text_eq_of_spells (h : Spells name.segments s) : name.text = s := by
  rw [text, ← h.text, String.ofList_toList]

/-- The text that a name is read from spells its segments, and they are as many as its
kind asks for. -/
theorem spells_of_ofText (h : ofText s = .ok name) :
    Spells name.segments s ∧ name.IsProper := by
  obtain ⟨first, later, hspells, rfl⟩ := ofText_eq_ok_iff.mp h
  rw [segments_ofSegments]
  exact ⟨hspells, isProper_ofSegments first later⟩

/-- The text that is written for a name is the one that it is read from. -/
theorem text_of_ofText (h : ofText s = .ok name) : name.text = s :=
  text_eq_of_spells (spells_of_ofText h).1

/-- A name is read exactly from the texts that spell some segments. -/
theorem exists_ofText_iff :
    (∃ name, ofText s = .ok name) ↔ ∃ segments, segments ≠ [] ∧ Spells segments s := by
  constructor
  · rintro ⟨name, h⟩
    obtain ⟨first, later, hspells, -⟩ := ofText_eq_ok_iff.mp h
    exact ⟨first :: later, List.cons_ne_nil _ _, hspells⟩
  · rintro ⟨segments, hne, hspells⟩
    obtain ⟨first, later, rfl⟩ := List.exists_cons_of_ne_nil hne
    exact ⟨ofSegments first later, ofText_of_spells hspells⟩

/-! ### Texts that are no names -/

/-- A text without the suffix has that fault, and no other text has it. -/
theorem missing_iff :
    ofText s = .error (.missingExtension s) ↔ ¬ suffix.toList <:+ s.toList := by
  rw [ofText]
  cases hstem : suffix.toList.isSuffixOf? s.toList with
  | none =>
    refine iff_of_true rfl ?_
    rintro ⟨stem, hsuffix⟩
    rw [List.isSuffixOf?_eq_some_iff_append_eq.mpr hsuffix] at hstem
    cases hstem
  | some stem =>
    refine iff_of_false (fun h => ?_) fun hnot => ?_
    · dsimp only at h
      split at h <;> cases h
    · exact hnot ⟨stem, List.isSuffixOf?_eq_some_iff_append_eq.mp hstem⟩

/-- The only fault of a text with the suffix is that a segment is empty. -/
theorem fault_of_suffix {fault : NameFault} (hsuffix : suffix.toList <:+ s.toList)
    (h : ofText s = .error fault) : fault = .emptySegment s := by
  obtain ⟨stem, hstem⟩ := hsuffix
  rw [ofText, List.isSuffixOf?_eq_some_iff_append_eq.mpr hstem] at h
  dsimp only at h
  split at h
  · exact (Except.error.inj h).symm
  · cases h

/-! ### Segments by their places -/

/-- Whether what a longer name tells is read off its segments by places that they have: the
first is the module, those from the second on are the followers, and the last is the
extending module of a file whose module has no bystanders. -/
def IsIndexed (name : GraphName) : Prop :=
  ∃ h : 2 < name.segments.length,
    name.primary = name.segments[0] ∧ name.followers = name.segments.drop 1 ∧
      ∀ module : Module, module.hasBystanders = false →
        name.role module =
          .extension (name.segments[name.segments.length - 1]) name.segments[0]

/-- The places are there in a name of the kind that its segments say. -/
theorem isIndexed_compound {first last : String} {middle : List String}
    (h : (compound first middle last).IsProper) : (compound first middle last).IsIndexed := by
  have hlength : (compound first middle last).segments.length = middle.length + 2 := by
    rw [segments, List.length_append, List.length_cons, List.length_singleton]
  have hmiddle : 0 < middle.length := List.length_pos_of_ne_nil h
  refine ⟨by omega, rfl, rfl, fun module hnone => ?_⟩
  have hlast : (compound first middle last).segments[
      (compound first middle last).segments.length - 1] = last := by
    simp [segments]
  rw [hlast, role, hnone]
  rfl

/-! ### All texts -/

/-- Whether a text is the one that a name is spelled as, and tells all of it. -/
structure IsReadFrom (name : GraphName) (s : String) : Prop where
  /-- The text spells the segments of the name in their order. -/
  spells : Spells name.segments s
  /-- Writing the name gives the text back. -/
  text : name.text = s
  /-- No other text is read as the name. -/
  unique : ∀ s', ofText s' = .ok name → s' = s
  /-- The name of a module has one segment. -/
  main : (∃ module, name = main module) ↔ name.segments.length = 1
  /-- The name of an extension has two segments. -/
  extension : (∃ extending extended, name = extension extending extended) ↔
    name.segments.length = 2
  /-- A longer name has three segments or more. -/
  compound : (∃ first middle last, name = compound first middle last) ↔
    3 ≤ name.segments.length
  /-- Places that are looked at in a longer name are there. -/
  indexed : 3 ≤ name.segments.length → name.IsIndexed

/-- Whether a text is read as the grammar of names says. -/
structure ObeysGrammar (s : String) : Prop where
  /-- A text is read exactly if it spells one segment or more. -/
  accepted : (∃ name, ofText s = .ok name) ↔ ∃ segments, segments ≠ [] ∧ Spells segments s
  /-- A name that is read is the one that the text spells. -/
  faithful : ∀ name, ofText s = .ok name → name.IsReadFrom s
  /-- The suffix is reported as missing exactly if it is. -/
  missing : ofText s = .error (.missingExtension s) ↔ ¬ suffix.toList <:+ s.toList
  /-- Any other text that spells no segments is reported for an empty one. -/
  rejected : suffix.toList <:+ s.toList → (¬ ∃ segments, segments ≠ [] ∧ Spells segments s) →
    ofText s = .error (.emptySegment s)

/-- **Names.** Every text is read as the grammar of names says: it is accepted exactly if
it spells segments, as the name of the right kind that has them, and otherwise refused for
what it lacks. -/
theorem ofText_obeysGrammar (s : String) : ObeysGrammar s := by
  constructor
  case accepted => exact exists_ofText_iff
  case faithful =>
    intro name h
    obtain ⟨hspells, hproper⟩ := spells_of_ofText h
    obtain ⟨hmain, hextension, hcompound⟩ := kind_iff_of_isProper hproper
    refine ⟨hspells, text_of_ofText h, ?_, hmain, hextension, hcompound, ?_⟩
    · intro s' h'
      rw [← text_of_ofText h', text_of_ofText h]
    · intro hlong
      obtain ⟨first, middle, last, rfl⟩ := hcompound.mpr hlong
      exact isIndexed_compound hproper
  case missing => exact missing_iff
  case rejected =>
    intro hsuffix hnone
    cases h : ofText s with
    | ok name => exact absurd (exists_ofText_iff.mp ⟨name, h⟩) hnone
    | error fault => rw [fault_of_suffix hsuffix h]

end ApiSurface.GraphName
