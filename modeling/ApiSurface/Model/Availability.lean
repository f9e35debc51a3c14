import ApiSurface.Model.Module

/-!
# Availability

The availability of a symbol is a list of statements, each about one domain, which is usually a
platform, or about no domain in particular.

## Main definitions

* `AvailabilityItem`, `Availability`, with their shapes.
* `Availability.extendMissing`: adding the statements about domains that are not mentioned yet.
-/

namespace ApiSurface

open Wire

/-- A statement on the availability of a symbol. -/
structure AvailabilityItem where
  domain : Option String
  introduced : Option Version
  deprecated : Option Version
  obsoleted : Option Version
  message : Option String
  renamed : Option String
  isUnconditionallyDeprecated : Bool
  isUnconditionallyUnavailable : Bool
  willEventuallyBeDeprecated : Bool
  deriving DecidableEq

namespace AvailabilityItem

/-- The statement that says nothing. -/
def blank : AvailabilityItem := ⟨none, none, none, none, none, none, false, false, false⟩

/-- The statement that a symbol was introduced in some version for a domain. -/
def ofIntroduced (domain : String) (version : Version) : AvailabilityItem :=
  { blank with domain := some domain, introduced := some version }

/-- The statement that a symbol was deprecated in some version for a domain. -/
def ofDeprecated (domain : String) (version : Version) : AvailabilityItem :=
  { blank with domain := some domain, deprecated := some version }

/-- How a statement is written. -/
def shape : Shape AvailabilityItem :=
  .record "AvailabilityItem"
    (.optional "domain" .text <| .optional "introduced" Version.shape <|
      .optional "deprecated" Version.shape <| .optional "obsoleted" Version.shape <|
      .optional "message" .text <| .optional "renamed" .text <|
      .mark "isUnconditionallyDeprecated" <| .mark "isUnconditionallyUnavailable" <|
      .mark "willEventuallyBeDeprecated" .done)
    (fun (domain, introduced, deprecated, obsoleted, message, renamed,
        isUnconditionallyDeprecated, isUnconditionallyUnavailable,
        willEventuallyBeDeprecated, ()) =>
      ⟨domain, introduced, deprecated, obsoleted, message, renamed,
        isUnconditionallyDeprecated, isUnconditionallyUnavailable, willEventuallyBeDeprecated⟩)
    (fun i => (i.domain, i.introduced, i.deprecated, i.obsoleted, i.message, i.renamed,
      i.isUnconditionallyDeprecated, i.isUnconditionallyUnavailable,
      i.willEventuallyBeDeprecated, ()))
    (fun _ => rfl)

end AvailabilityItem

/-- The statements on the availability of a symbol. -/
abbrev Availability := List AvailabilityItem

namespace Availability

/-- How statements are written. -/
def shape : Shape Availability := .list AvailabilityItem.shape

/-- Whether there is a statement about a domain, or about none. -/
def containsDomain (items : Availability) (domain : Option String) : Bool :=
  items.any fun item => item.domain == domain

/-- The first statement about a domain. -/
def find? (items : Availability) (domain : String) : Option AvailabilityItem :=
  List.find? (fun item => item.domain == some domain) items

/-- Appends, one after the other, the statements about domains that are not mentioned yet. -/
def extendMissing (items : Availability) : Availability → Availability
  | [] => items
  | item :: others =>
    if containsDomain items item.domain then extendMissing items others
    else extendMissing (items ++ [item]) others

/-- How many statements `extendMissing` appends. -/
def missingCount (items others : Availability) : Nat :=
  (extendMissing items others).length - items.length

end Availability

end ApiSurface
