import ApiSurface.Proofs.Model.WireTypes
import ApiSurface.Proofs.Reading.ValueTrees

/-!
# Payloads of symbols

A payload of a known kind that is stored in a symbol can be read from it, and storing it
changes nothing else: neither the other fields of the symbol nor the payloads under other
keys. Storing cannot fail, since there is a value for every payload of a known kind.

A payload may also be there because the symbol has been read with it. It is then the value
tree of some text, and it is read from the tree as it would have been read from the text.

## Main definitions

* `Symbol.Stores`: what a symbol is after a payload has been stored in it.
* `Symbol.ReadsAsText`: whether a payload is read from a symbol as it is read from a text.

## Main results

* `Symbol.mixin?_setMixin`: what is stored is read.
* `Symbol.mixins_setMixin_of_ne`, `Symbol.setMixin_setMixin`: storing is local, and the
  last one counts.
* `Symbol.setMixin_comm`: payloads of different kinds are stored in either order.
* `Symbol.stores_payloads`: all of this for availability and declarations.
* `Symbol.payloads_readAsText`: payloads that are the value trees of texts.
-/

namespace ApiSurface

open Json Wire

/-- Availability is written by a plain shape. -/
theorem Availability.shape_isPlain : Availability.shape.IsPlain := by
  simp [Availability.shape, AvailabilityItem.shape, Version.shape, Shape.IsPlain,
    Fields.ArePlain, Fields.keys]

/-- Declarations are written by a plain shape. -/
theorem Fragments.shape_isPlain : Fragments.shape.IsPlain :=
  ⟨⟨trivial, trivial, trivial, trivial⟩, by decide⟩

namespace Symbol

section

variable {α : Type} (s : Symbol) (mixin : Mixin α)

/-- A payload that has been stored is read. -/
theorem mixin?_setMixin (plain : mixin.shape.IsPlain) (payload : α) :
    (s.setMixin mixin payload).mixin? mixin = .ok (some payload) := by
  simp only [mixin?, setMixin, Table.get?_insert_self, mixin.shape.ofValue_toValue plain]
  rfl

/-- Payloads under other keys are not changed. -/
theorem mixins_setMixin_of_ne (payload : α) {key : String} (h : key ≠ mixin.key) :
    (s.setMixin mixin payload).mixins.get? key = s.mixins.get? key :=
  s.mixins.get?_insert_of_ne _ h

/-- Of two payloads that are stored the later one counts. -/
theorem setMixin_setMixin (payload payload' : α) :
    (s.setMixin mixin payload).setMixin mixin payload' = s.setMixin mixin payload' := by
  simp only [setMixin, Table.insert_insert]

/-- Payloads under different keys are stored in either order. -/
theorem setMixin_comm {β : Type} {mixin : Mixin α} {mixin' : Mixin β}
    (h : mixin.key ≠ mixin'.key) (payload : α) (payload' : β) :
    (s.setMixin mixin payload).setMixin mixin' payload' =
      (s.setMixin mixin' payload').setMixin mixin payload := by
  simp only [setMixin, Table.insert_comm _ h]

/-- `stored` is what becomes of a symbol when a payload of a known kind is stored in it. -/
structure Stores (payload : α) (stored : Symbol) : Prop where
  /-- The payload stands under its key as it is written. -/
  written : stored.mixins.get? mixin.key = some (mixin.shape.toValue payload)
  /-- It is read again as it was. -/
  read : stored.mixin? mixin = .ok (some payload)
  /-- What there is under other keys stays. -/
  others : ∀ key, key ≠ mixin.key → stored.mixins.get? key = s.mixins.get? key
  /-- So do all fields but the payloads. -/
  fields : { stored with mixins := s.mixins } = s
  /-- If another payload of this kind is stored later, it is as if only that one had been. -/
  replaced : ∀ later, stored.setMixin mixin later = s.setMixin mixin later

/-- Storing a payload that is written by a plain shape. -/
theorem stores_setMixin (plain : mixin.shape.IsPlain) (payload : α) :
    s.Stores mixin payload (s.setMixin mixin payload) where
  written := s.mixins.get?_insert_self _ _
  read := s.mixin?_setMixin mixin plain payload
  others _ := s.mixins_setMixin_of_ne mixin payload
  fields := rfl
  replaced := s.setMixin_setMixin mixin payload

end

/-- **Storing payloads.** Any availability and any declaration can be stored in any symbol,
and read again; neither is in the other's way. -/
theorem stores_payloads (s : Symbol) :
    (∀ items, s.Stores Availability.mixin items (s.setMixin Availability.mixin items)) ∧
      (∀ fragments, s.Stores Fragments.mixin fragments
        (s.setMixin Fragments.mixin fragments)) ∧
      ∀ items fragments,
        (s.setMixin Availability.mixin items).setMixin Fragments.mixin fragments =
          (s.setMixin Fragments.mixin fragments).setMixin Availability.mixin items :=
  ⟨s.stores_setMixin _ Availability.shape_isPlain, s.stores_setMixin _ Fragments.shape_isPlain,
    s.setMixin_comm (by decide)⟩

/-! ### Payloads of texts -/

section

variable {α : Type} {s : Symbol} {mixin : Mixin α} {text : List UInt8}

/-- Whether a payload of a known kind is read from a symbol exactly if it is read from a
text, and as the same. -/
def ReadsAsText (s : Symbol) (mixin : Mixin α) (text : List UInt8) : Prop :=
  (s.mixin? mixin).toOption = (mixin.shape.ofBytes text).toOption.map some

/-- What is read from a symbol is what is read from the text. -/
theorem ReadsAsText.eq_ok_iff (reads : s.ReadsAsText mixin text) {payload : α} :
    s.mixin? mixin = .ok (some payload) ↔ mixin.shape.ofBytes text = .ok payload := by
  rw [ReadsAsText, ← Except.toOption_map, Except.toOption_eq_iff] at reads
  simp [reads]

/-- A symbol is asynchronous exactly if its declaration can be read, and has the keyword. -/
theorem isAsync_iff :
    s.isAsync = true ↔ ∃ fragments, s.mixin? Fragments.mixin = .ok (some fragments) ∧
    ∃ f ∈ fragments, f.kind = "keyword" ∧ f.spelling = "async" := by
  rw [isAsync, Symbol.fragments]
  cases s.mixin? Fragments.mixin with
  | error cause => simp
  | ok declaration =>
    cases declaration with
    | none => simp
    | some fragments => simp [Fragments.containsKeyword, Fragment.isKeyword]

/-- A payload that is the value tree of an orderly text is read as the text is. -/
theorem readsAsText {tree : Value} (h : Value.ofBytes text = .ok tree)
    (orderly : (Document.ofBytes text).root.IsOrderly) (faithful : mixin.shape.IsFaithful)
    (stored : s.mixins.get? mixin.key = some tree) : s.ReadsAsText mixin text := by
  have hshape : (mixin.shape.ofValue tree).toOption = (mixin.shape.ofBytes text).toOption :=
    Except.toOption_eq_iff.mpr fun _ => mixin.shape.ofValue_iff_ofBytes faithful h orderly
  simp only [ReadsAsText, mixin?, stored, Except.toOption_map, hshape]

/-- **Payloads of texts.** A payload that is the value tree of a text, in which no object
repeats a key or has the embedding key, is read as the text is, and so is the keyword of an
asynchronous declaration. -/
theorem payloads_readAsText {tree : Value} (h : Value.ofBytes text = .ok tree)
    (orderly : (Document.ofBytes text).root.IsOrderly) (s : Symbol) :
    (s.mixins.get? Availability.mixin.key = some tree →
      s.ReadsAsText Availability.mixin text) ∧
      (s.mixins.get? Fragments.mixin.key = some tree → s.ReadsAsText Fragments.mixin text ∧
        (s.isAsync = true ↔ ∃ fragments, Fragments.shape.ofBytes text = .ok fragments ∧
          ∃ f ∈ fragments, f.kind = "keyword" ∧ f.spelling = "async")) := by
  refine ⟨readsAsText h orderly Availability.shape_isFaithful, fun stored => ?_⟩
  have reads : s.ReadsAsText Fragments.mixin text :=
    readsAsText h orderly Fragments.shape_isFaithful stored
  exact ⟨reads, isAsync_iff.trans (exists_congr fun _ => and_congr_left' reads.eq_ok_iff)⟩

/-- Statements of which the second one is written as an array, and the first one has a
member of no field. -/
def statementsText : List UInt8 :=
  Text.bytes ("[\x7b\"message\":null,\"domain\":\"iOS\",\"x\":\x7b\"b\":1,\"a\":[]\x7d," ++
    "\"introduced\":[13,1,2]\x7d,[\"macOS\",\x7b\"minor\":2,\"major\":10\x7d]]")

/-- A declaration with the keyword `async`, which has a member of no field, and a name,
written as an array. -/
def asyncText : List UInt8 :=
  Text.bytes ("[\x7b\"spelling\":\"async\",\"x\":[\x7b\x7d],\"kind\":\"keyword\"\x7d," ++
    "[\"identifier\",\"f\",null]]")

/-- A symbol with statements and a declaration. -/
def described (items fragments : Value) : Symbol :=
  ⟨⟨"p", "s"⟩, ⟨"k", "d"⟩, [], Names.untitled, "public",
    .ofList [(Availability.mixin.key, items), (Fragments.mixin.key, fragments)]⟩

/-- Both payloads of a symbol are read from their value trees. -/
theorem payloads_readAsText_async :
    ∃ items fragments, Value.ofBytes statementsText = .ok items ∧
      Value.ofBytes asyncText = .ok fragments ∧
      (described items fragments).ReadsAsText Availability.mixin statementsText ∧
      (Availability.shape.ofBytes statementsText).toBool = true ∧
      (described items fragments).ReadsAsText Fragments.mixin asyncText ∧
      (described items fragments).isAsync = true := by
  obtain ⟨items, hitems⟩ : ∃ items, Value.ofBytes statementsText = .ok items :=
    Except.toBool_eq_true_iff.mp (by decide +kernel)
  obtain ⟨fragments, hfragments⟩ : ∃ fragments, Value.ofBytes asyncText = .ok fragments :=
    Except.toBool_eq_true_iff.mp (by decide +kernel)
  have hread := (payloads_readAsText hitems (by decide +kernel) (described items fragments)).1
    (by simp [described, Table.get?_ofList, lastUnder, Availability.mixin, Fragments.mixin])
  obtain ⟨hdeclared, hasync⟩ :=
    (payloads_readAsText hfragments (by decide +kernel) (described items fragments)).2
    (by simp [described, Table.get?_ofList, lastUnder])
  exact ⟨items, fragments, hitems, hfragments, hread, by decide +kernel, hdeclared,
    hasync.mpr (by decide +kernel)⟩

end

end Symbol

end ApiSurface
