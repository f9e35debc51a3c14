import ApiSurface.Model.Graph
import ApiSurface.Proofs.Reading.Rereading
import ApiSurface.Settings.Settings

/-!
# The types that are written and read

All values that are exchanged as texts are written by faithful shapes. So a value that
has been read, and is written again, is read from what is written, up to three
reservations: floating-point numbers may be rounded, an object with the key of embedded
texts is taken for such a text, and a value that has come from an embedded text may nest
more deeply than a text may.

## Main definitions

* `WireType`: the types of values that are exchanged as texts, with their shapes.
* `Shape.recode`: reads a text and writes it again.

## Main results

* `WireType.shape_isFaithful`: every value is told by what is written for it.
* `WireType.ofBytes_render_iff_nesting`: the values that are read back from what is
  written for them.
-/

namespace ApiSurface

open Json Wire

/-- Reads a text and writes it again. -/
def Wire.Shape.recode {α : Type} (shape : Shape α) (text : List UInt8) :
    Except Diagnostic String :=
  (shape.ofBytes text).map shape.render

/-! ### The types -/

/-- The types of values that are exchanged as texts. -/
inductive WireType
  | symbolGraph | metadata | module | platform | operatingSystem | version
  | symbol | symbolIdentifier | symbolKind | names | relationship
  | availabilityItem | availability | fragment | fragments
  | settings | assumedAvailability | preference

namespace WireType

/-- The values of a type. -/
def Carrier : WireType → Type
  | symbolGraph => SymbolGraph
  | metadata => Metadata
  | module => Module
  | platform => Platform
  | operatingSystem => OperatingSystem
  | version => Version
  | symbol => Symbol
  | symbolIdentifier => SymbolIdentifier
  | symbolKind => SymbolKind
  | names => Names
  | relationship => Relationship
  | availabilityItem => AvailabilityItem
  | availability => Availability
  | fragment => Fragment
  | fragments => Fragments
  | settings => Settings
  | assumedAvailability => AssumedAvailability
  | preference => Preference

/-- How the values of a type are written. -/
def shape : (type : WireType) → Shape type.Carrier
  | symbolGraph => SymbolGraph.shape
  | metadata => Metadata.shape
  | module => Module.shape
  | platform => Platform.shape
  | operatingSystem => OperatingSystem.shape
  | version => Version.shape
  | symbol => Symbol.shape
  | symbolIdentifier => SymbolIdentifier.shape
  | symbolKind => SymbolKind.shape
  | names => Names.shape
  | relationship => Relationship.shape
  | availabilityItem => AvailabilityItem.shape
  | availability => Availability.shape
  | fragment => Fragment.shape
  | fragments => Fragments.shape
  | settings => Settings.shape
  | assumedAvailability => AssumedAvailability.shape
  | preference => Preference.shape

end WireType

/-! ### Their shapes

A shape of a record is faithful if its fields are, one after the other, with the values
that are assumed for them; if their keys differ; and if a record is taken apart into what
it was made of. -/

theorem Version.shape_isFaithful : Version.shape.IsFaithful :=
  ⟨⟨trivial, trivial, trivial, trivial, trivial, trivial, trivial, trivial⟩, by decide,
    fun _ => rfl⟩

theorem Metadata.shape_isFaithful : Metadata.shape.IsFaithful :=
  ⟨⟨Version.shape_isFaithful, trivial, trivial⟩, by decide, fun _ => rfl⟩

theorem OperatingSystem.shape_isFaithful : OperatingSystem.shape.IsFaithful :=
  ⟨⟨trivial, Version.shape_isFaithful, trivial⟩, by decide, fun _ => rfl⟩

theorem Platform.shape_isFaithful : Platform.shape.IsFaithful :=
  ⟨⟨trivial, trivial, OperatingSystem.shape_isFaithful, trivial, trivial⟩, by decide,
    fun _ => rfl⟩

theorem Platform.isSettled_unknown : Platform.shape.IsSettled Platform.unknown :=
  ⟨nofun, nofun, nofun, nofun, trivial⟩

theorem Module.shape_isFaithful : Module.shape.IsFaithful :=
  ⟨⟨trivial, Platform.shape_isFaithful, Platform.isSettled_unknown, trivial,
    trivial⟩, by decide, fun _ => rfl⟩

theorem Fragment.shape_isFaithful : Fragment.shape.IsFaithful :=
  ⟨⟨trivial, trivial, trivial, trivial⟩, by decide, fun _ => rfl⟩

theorem Fragments.shape_isFaithful : Fragments.shape.IsFaithful := Fragment.shape_isFaithful

theorem Names.shape_isFaithful : Names.shape.IsFaithful :=
  ⟨⟨trivial, Fragments.shape_isFaithful, Fragments.shape_isFaithful, trivial,
    trivial⟩, by decide, fun _ => rfl⟩

theorem Names.isSettled_untitled : Names.shape.IsSettled Names.untitled :=
  ⟨trivial, nofun, nofun, nofun, trivial⟩

theorem SymbolIdentifier.shape_isFaithful : SymbolIdentifier.shape.IsFaithful :=
  ⟨⟨trivial, trivial, trivial⟩, by decide, fun _ => rfl⟩

theorem SymbolKind.shape_isFaithful : SymbolKind.shape.IsFaithful :=
  ⟨⟨trivial, trivial, trivial⟩, by decide, fun _ => rfl⟩

theorem Symbol.shape_isFaithful : Symbol.shape.IsFaithful :=
  ⟨⟨SymbolIdentifier.shape_isFaithful, SymbolKind.shape_isFaithful, trivial, nofun,
    Names.shape_isFaithful, Names.isSettled_untitled, trivial, trivial,
    trivial⟩, by decide, fun _ _ => ⟨rfl, rfl⟩⟩

theorem Relationship.shape_isFaithful : Relationship.shape.IsFaithful :=
  ⟨⟨trivial, trivial, trivial, trivial, trivial⟩, by decide, fun _ _ => ⟨rfl, rfl⟩⟩

theorem SymbolGraph.shape_isFaithful : SymbolGraph.shape.IsFaithful :=
  ⟨⟨Metadata.shape_isFaithful, Module.shape_isFaithful, Symbol.shape_isFaithful, nofun,
    Relationship.shape_isFaithful, nofun, trivial⟩, by decide, fun _ => rfl⟩

theorem AvailabilityItem.shape_isFaithful : AvailabilityItem.shape.IsFaithful :=
  ⟨⟨trivial, Version.shape_isFaithful, Version.shape_isFaithful, Version.shape_isFaithful,
    trivial, trivial, trivial⟩, by decide, fun _ => rfl⟩

theorem Availability.shape_isFaithful : Availability.shape.IsFaithful :=
  AvailabilityItem.shape_isFaithful

theorem AssumedAvailability.shape_isFaithful : AssumedAvailability.shape.IsFaithful :=
  ⟨⟨trivial, Version.shape_isFaithful, trivial⟩, by decide, fun _ => rfl⟩

theorem Assumptions.shape_isFaithful : Assumptions.shape.IsFaithful :=
  AssumedAvailability.shape_isFaithful

theorem Assumptions.isSettled_empty : Assumptions.shape.IsSettled .empty := nofun

theorem Preference.shape_isFaithful : Preference.shape.IsFaithful := trivial

theorem Settings.shape_isFaithful : Settings.shape.IsFaithful :=
  ⟨⟨Preference.shape_isFaithful, trivial, trivial, trivial, trivial, trivial,
    Assumptions.shape_isFaithful, Assumptions.isSettled_empty,
    trivial⟩, by decide, fun _ => rfl⟩

namespace WireType

/-- Every value that is exchanged as text is told by what is written for it. -/
theorem shape_isFaithful : (type : WireType) → type.shape.IsFaithful
  | symbolGraph => SymbolGraph.shape_isFaithful
  | metadata => Metadata.shape_isFaithful
  | module => Module.shape_isFaithful
  | platform => Platform.shape_isFaithful
  | operatingSystem => OperatingSystem.shape_isFaithful
  | version => Version.shape_isFaithful
  | symbol => Symbol.shape_isFaithful
  | symbolIdentifier => SymbolIdentifier.shape_isFaithful
  | symbolKind => SymbolKind.shape_isFaithful
  | names => Names.shape_isFaithful
  | relationship => Relationship.shape_isFaithful
  | availabilityItem => AvailabilityItem.shape_isFaithful
  | availability => Availability.shape_isFaithful
  | fragment => Fragment.shape_isFaithful
  | fragments => Fragments.shape_isFaithful
  | settings => Settings.shape_isFaithful
  | assumedAvailability => AssumedAvailability.shape_isFaithful
  | preference => Preference.shape_isFaithful

/-- **Reading again.** A value that has been read from a text, without floating-point numbers
and without the key of embedded texts, is read from what is written for it exactly if it does
not nest too deeply for a text. Reading that and writing it again then changes nothing. -/
theorem ofBytes_render_iff_nesting (type : WireType) {text : List UInt8} {a : type.Carrier}
    (h : type.shape.ofBytes text = .ok a)
    (exact : (type.shape.encode a).Everywhere Value.IsExact)
    (lacks : (type.shape.encode a).Everywhere (Value.Lacks embeddingKey)) :
    (type.shape.ofBytes (Text.bytes (type.shape.render a)) = .ok a ↔
        (type.shape.encode a).nesting ≤ 127) ∧
      ((type.shape.encode a).nesting ≤ 127 → ∀ written, type.shape.recode text = .ok written →
        type.shape.recode (Text.bytes written) = .ok written) := by
  have hagain : type.shape.ofBytes (Text.bytes (type.shape.render a)) = .ok a ↔
      (type.shape.encode a).nesting ≤ 127 := by
    rw [Shape.ofBytes_render_iff type.shape_isFaithful h exact lacks, eq_self_iff_true,
      true_and]
  refine ⟨hagain, fun hnest written hwritten => ?_⟩
  obtain rfl : type.shape.render a = written := by
    rw [Shape.recode, h] at hwritten
    exact Except.ok.inj hwritten
  rw [Shape.recode, hagain.mpr hnest]
  rfl

/-! ### Embedded texts -/

/-- A text with one symbol, of which a payload is made of arrays that nest as deeply as
given around an embedded text, which nests by two. -/
def embeddingText (levels : Nat) : List UInt8 :=
  Text.bytes "\x7b\"identifier\":[\"p\",\"s\"],\"kind\":[\"k\",\"d\"],\"x\":" ++
    List.replicate levels 91 ++
    Text.bytes "\x7b\"$serde_json::private::RawValue\":\"[[]]\"\x7d" ++
    List.replicate levels 93 ++ Text.bytes "\x7d"

/-- A payload that nests 126 deep in a symbol is read back. -/
theorem ofBytes_render_embedded :
    ∃ a, symbol.shape.ofBytes (embeddingText 124) = .ok a ∧
      symbol.shape.ofBytes (Text.bytes (symbol.shape.render a)) = .ok a := by
  have hread : ∃ a, symbol.shape.ofBytes (embeddingText 124) = .ok a ∧
      (symbol.shape.encode a).Everywhere Value.IsExact ∧
      (symbol.shape.encode a).Everywhere (Value.Lacks embeddingKey) ∧
      (symbol.shape.encode a).nesting ≤ 127 := by decide +kernel
  obtain ⟨a, h, exact, lacks, hnest⟩ := hread
  exact ⟨a, h, (ofBytes_render_iff_nesting symbol h exact lacks).1.mpr hnest⟩

/-- A payload that nests 127 deep in a symbol cannot be read as part of a text. It can come
from a text all the same, of which the innermost part is embedded. -/
theorem not_ofBytes_render_embedded :
    ¬ ∀ (type : WireType) (text : List UInt8) (a : type.Carrier),
      type.shape.ofBytes text = .ok a →
      (type.shape.encode a).Everywhere Value.IsExact →
      (type.shape.encode a).Everywhere (Value.Lacks embeddingKey) →
      type.shape.ofBytes (Text.bytes (type.shape.render a)) = .ok a := by
  have hread : ∃ a, symbol.shape.ofBytes (embeddingText 125) = .ok a ∧
      (symbol.shape.encode a).Everywhere Value.IsExact ∧
      (symbol.shape.encode a).Everywhere (Value.Lacks embeddingKey) ∧
      ¬ (symbol.shape.encode a).nesting ≤ 127 := by decide +kernel
  obtain ⟨a, h, exact, lacks, hnest⟩ := hread
  intro again
  have hagain := again symbol _ a h exact lacks
  exact hnest ((Shape.ofBytes_render_iff symbol.shape_isFaithful h exact lacks).mp hagain).2

end WireType

end ApiSurface
