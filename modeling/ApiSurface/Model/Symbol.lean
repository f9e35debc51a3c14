import ApiSurface.Model.Availability

/-!
# Symbols and relationships

A symbol is one entry of an API. Its declaration is written out as a run of fragments, each
with its kind and its spelling. Besides its own fields a symbol carries payloads, called
mixins, each under its key. They are kept as JSON values, so that payloads nothing is known
about survive; the two that the library understands are read on demand.

## Main definitions

* `Fragment`: a fragment of a declaration; `Fragments.containsKeyword`: whether a
  keyword occurs in one.
* `Symbol`, `Relationship` and their parts, with their shapes.
* `Mixin`: a payload that the library understands; `Symbol.mixin?`, `Symbol.setMixin`.
* `Symbol.isAsync`: whether a symbol is declared with the keyword `async`.
-/

namespace ApiSurface

open Wire Json

/-! ### Declaration fragments -/

/-- A fragment of a declaration. -/
structure Fragment where
  kind : String
  spelling : String
  preciseIdentifier : Option String
  deriving DecidableEq

/-- How a fragment is written. -/
def Fragment.shape : Shape Fragment :=
  .record "DeclarationFragment"
    (.required "kind" .text <| .required "spelling" .text <|
      .optional "preciseIdentifier" .text .done)
    (fun (kind, spelling, preciseIdentifier, ()) => ⟨kind, spelling, preciseIdentifier⟩)
    (fun f => (f.kind, f.spelling, f.preciseIdentifier, ()))
    (fun _ => rfl)

/-- Whether a fragment is the given keyword. -/
def Fragment.isKeyword (keyword : String) (f : Fragment) : Bool :=
  f.kind == "keyword" && f.spelling == keyword

/-- A declaration, fragment by fragment. -/
abbrev Fragments := List Fragment

/-- How a declaration is written. -/
def Fragments.shape : Shape Fragments := .list Fragment.shape

/-- Whether a keyword occurs in a declaration. -/
def Fragments.containsKeyword (fragments : Fragments) (keyword : String) : Bool :=
  fragments.any (Fragment.isKeyword keyword)

/-! ### Parts of a symbol -/

/-- The identifier of a symbol, unique in its graph, and the language it belongs to. -/
structure SymbolIdentifier where
  precise : String
  interfaceLanguage : String
  deriving DecidableEq

/-- How an identifier is written. -/
def SymbolIdentifier.shape : Shape SymbolIdentifier :=
  .record "SymbolIdentifier" (.required "precise" .text <|
    .required "interfaceLanguage" .text .done)
    (fun (precise, interfaceLanguage, ()) => ⟨precise, interfaceLanguage⟩)
    (fun i => (i.precise, i.interfaceLanguage, ()))
    (fun _ => rfl)

/-- The kind of a symbol. -/
structure SymbolKind where
  identifier : String
  displayName : String
  deriving DecidableEq

/-- How a kind is written. -/
def SymbolKind.shape : Shape SymbolKind :=
  .record "SymbolKind" (.required "identifier" .text <| .required "displayName" .text .done)
    (fun (identifier, displayName, ()) => ⟨identifier, displayName⟩)
    (fun k => (k.identifier, k.displayName, ()))
    (fun _ => rfl)

/-- The names of a symbol in the places where it is shown. -/
structure Names where
  title : String
  navigator : Option Fragments
  subHeading : Option Fragments
  prose : Option String
  deriving DecidableEq

/-- The names of a symbol that has none. -/
def Names.untitled : Names := ⟨"", none, none, none⟩

/-- How names are written. -/
def Names.shape : Shape Names :=
  .record "Names"
    (.required "title" .text <| .optional "navigator" Fragments.shape <|
      .optional "subHeading" Fragments.shape <| .optional "prose" .text .done)
    (fun (title, navigator, subHeading, prose, ()) => ⟨title, navigator, subHeading, prose⟩)
    (fun n => (n.title, n.navigator, n.subHeading, n.prose, ()))
    (fun _ => rfl)

/-! ### Symbols -/

/-- An entry of an API. -/
structure Symbol where
  identifier : SymbolIdentifier
  kind : SymbolKind
  pathComponents : List String
  names : Names
  accessLevel : String
  mixins : Table String Value

/-- A kind of payload that the library understands. -/
structure Mixin (α : Type) where
  /-- The key it is kept under. -/
  key : String
  /-- How it is written. -/
  shape : Shape α

/-- The availability of a symbol. -/
def Availability.mixin : Mixin Availability := ⟨"availability", Availability.shape⟩

/-- The declaration of a symbol. -/
def Fragments.mixin : Mixin Fragments := ⟨"declarationFragments", Fragments.shape⟩

namespace Symbol

/-- How a symbol is written. -/
def shape : Shape Symbol :=
  .openRecord "Symbol"
    (.required "identifier" SymbolIdentifier.shape <| .required "kind" SymbolKind.shape <|
      .defaulted "pathComponents" (.list .text) [] <|
      .defaulted "names" Names.shape Names.untitled <|
      .defaulted "accessLevel" .text "public" .done)
    (fun (identifier, kind, pathComponents, names, accessLevel, ()) mixins =>
      ⟨identifier, kind, pathComponents, names, accessLevel, mixins⟩)
    (fun s => (s.identifier, s.kind, s.pathComponents, s.names, s.accessLevel, ()))
    Symbol.mixins
    (fun _ => rfl)

/-- The identifier of the symbol in its graph. -/
def precise (s : Symbol) : String := s.identifier.precise

/-- Whether the symbol has a payload under a key. -/
def hasMixin (s : Symbol) (key : String) : Bool := s.mixins.contains key

/-- The payload of a known kind, if the symbol has one; it may not be readable as such. -/
def mixin? {α : Type} (s : Symbol) (mixin : Mixin α) : Except Cause (Option α) :=
  match s.mixins.get? mixin.key with
  | some value => (mixin.shape.ofValue value).map some
  | none => .ok none

/-- Stores a payload of a known kind, in place of any payload under its key. -/
def setMixin {α : Type} (s : Symbol) (mixin : Mixin α) (payload : α) : Symbol :=
  { s with mixins := s.mixins.insert mixin.key (mixin.shape.toValue payload) }

/-- The availability of the symbol. -/
def availability (s : Symbol) : Except Cause (Option Availability) :=
  s.mixin? Availability.mixin

/-- The declaration of the symbol. -/
def fragments (s : Symbol) : Except Cause (Option Fragments) := s.mixin? Fragments.mixin

/-- Whether the symbol is declared with the keyword `async`. A declaration that cannot be
read counts as one without it. -/
def isAsync (s : Symbol) : Bool :=
  match s.fragments with
  | .ok (some fragments) => fragments.containsKeyword "async"
  | _ => false

/-- The compact JSON text of the symbol. It depends on the symbol alone, since its payloads
are kept in key order. -/
def render (s : Symbol) : String := shape.render s

end Symbol

/-! ### Relationships -/

/-- A relationship between two symbols, of which the target may belong to another module. -/
structure Relationship where
  kind : String
  source : String
  target : String
  targetFallback : Option String
  mixins : Table String Value

/-- How a relationship is written. -/
def Relationship.shape : Shape Relationship :=
  .openRecord "Relationship"
    (.required "kind" .text <| .required "source" .text <| .required "target" .text <|
      .optional "targetFallback" .text .done)
    (fun (kind, source, target, targetFallback, ()) mixins =>
      ⟨kind, source, target, targetFallback, mixins⟩)
    (fun r => (r.kind, r.source, r.target, r.targetFallback, ()))
    Relationship.mixins
    (fun _ => rfl)

end ApiSurface
