import ApiSurface.Files.Walk
import ApiSurface.Naming.Role
import ApiSurface.Reading.Plan

/-!
# Events

What the library logs. Each event has a level, a target, which is the part of the library it
comes from, and a message. A traced result is a value or a fault, together with the events
that were logged on the way to it.

## Main definitions

* `Event`: an event; `Event.level`, `Event.target`, `Event.message`.
* `Event.line`: what is written into a log for an event.
* `Traced`: a result with its events; `Traced.note`, `Traced.ofExcept`: how they arise.

## Main results

* `Traced.result_bind`, `Traced.result_forEach`: the result of a composed computation is
  composed of the results of its parts.
-/

namespace ApiSurface

/-! ### Levels -/

/-- How much an event matters, from the most to the least. -/
inductive Level
  | error
  | warn
  | info
  | debug
  | trace
  deriving DecidableEq

namespace Level

/-- The number of levels up to a level, starting from the one that matters most. -/
def rank : Level → Nat
  | error => 1
  | warn => 2
  | info => 3
  | debug => 4
  | trace => 5

/-- How a level is written in a log. -/
def name : Level → String
  | error => "ERROR"
  | warn => "WARN"
  | info => "INFO"
  | debug => "DEBUG"
  | trace => "TRACE"

end Level

/-! ### Events -/

/-- Something worth logging. -/
inductive Event
  /-- A module is known by the name it declares, not by the one in the name of its file. -/
  | nameOverruled (name : GraphName) (declared : String)
  | symbolsCollapsed (count : Nat) (path : Path)
  | symbolsIgnored (count : Nat) (overlay base : Path)
  | availabilityMerged (count : Nat) (overlay base : Path)
  | decodingStarted (files : Nat) (plan : Plan) (workers : UInt64)
  | wholeDecoded (path : Path) (symbols relationships : Nat)
  | batchesDecoded (path : Path) (batchSize : UInt64) (symbols relationships : Nat)
  | loaded (files graphs collapsed overlays items : Nat)
  | settingsRead (path : Path)
  | entrySkipped (root : Path) (fault : WalkFault)
  | filesFound (count : Nat) (root : Path)

namespace Event

/-- How much an event matters. -/
def level : Event → Level
  | loaded _ _ _ _ _ => .info
  | entrySkipped _ _ => .warn
  | _ => .debug

/-- The part of the library that an event comes from. -/
def target : Event → String
  | nameOverruled _ _ => "symgraph_ingest::classify"
  | symbolsCollapsed _ _ => "symgraph_ingest::dedup"
  | symbolsIgnored _ _ _ => "symgraph_ingest::consolidate::merge"
  | availabilityMerged _ _ _ => "symgraph_ingest::consolidate"
  | decodingStarted _ _ _ | loaded _ _ _ _ _ => "symgraph_ingest::runtime"
  | wholeDecoded _ _ _ | batchesDecoded _ _ _ _ => "symgraph_ingest::runtime::kernel"
  | settingsRead _ => "symgraph_core::config"
  | entrySkipped _ _ | filesFound _ _ => "symgraph_core::discovery"

/-- The numbers of symbols and relationships of a decoded graph, in words. -/
def decodedCounts (symbols relationships : Nat) : String :=
  "(" ++ toString symbols ++ " symbols, " ++ toString relationships ++ " relationships)"

/-- The message of an event. -/
def message : Event → String
  | nameOverruled name declared =>
    name.text ++ " declares module " ++ declared ++ ", using the declared name"
  | symbolsCollapsed count path =>
    "collapsed " ++ toString count ++ " duplicate symbol entries in " ++ path.display
  | symbolsIgnored count overlay base =>
    "ignored " ++ toString count ++ " symbols of " ++ overlay.display ++ " missing from " ++
      base.display
  | availabilityMerged count overlay base =>
    "merged " ++ toString count ++ " availability items from " ++ overlay.display ++
      " into " ++ base.display
  | decodingStarted files plan workers =>
    "decoding " ++ toString files ++ " symbol graphs (" ++ plan.description ++ ", " ++
      toString workers ++ " workers)"
  | wholeDecoded path symbols relationships =>
    "decoded " ++ path.display ++ " " ++ decodedCounts symbols relationships
  | batchesDecoded path batchSize symbols relationships =>
    "decoded " ++ path.display ++ " in batches of " ++ toString batchSize ++ " " ++
      decodedCounts symbols relationships
  | loaded files graphs collapsed overlays items =>
    "loaded " ++ toString files ++ " symbol graphs into " ++ toString graphs ++
      " module graphs (" ++
      toString collapsed ++ " duplicates collapsed, " ++ toString overlays ++
      " overlays adding " ++ toString items ++ " availability items)"
  | settingsRead path => "loaded ingest config from " ++ path.display
  | entrySkipped root fault =>
    "skipping unreadable entry under " ++ root.display ++ ": " ++ fault.message
  | filesFound count root =>
    "found " ++ toString count ++ " symbol graph files under " ++ root.display

/-- A character of a message as it stands in a log. Of the characters that control a
terminal, those that may change what it shows are given by their codes. -/
def shownChar (c : Char) : List Char :=
  let digits := Text.hexDigits c.toNat
  if c ∈ ['\x07', '\x08', '\x0c', '\x1b', '\x7f'] then
    ['\\', 'x'] ++ List.replicate (2 - digits.length) '0' ++ digits
  else if 0x80 ≤ c.toNat && c.toNat ≤ 0x9F then ['\\', 'u', '\x7b'] ++ digits ++ ['\x7d']
  else [c]

/-- What is written into a log for an event. -/
def line (event : Event) : String :=
  let message := String.ofList (event.message.toList.flatMap shownChar)
  event.level.name ++ " " ++ event.target ++ ": " ++ message

end Event

/-! ### Traced results -/

/-- A result with the events logged on the way to it. -/
structure Traced (ε α : Type) where
  /-- The events, in the order in which they were logged. -/
  events : List Event
  /-- The value, or the fault. -/
  result : Except ε α

namespace Traced

/-- Logs events. -/
def note {ε : Type} (events : List Event) : Traced ε Unit := ⟨events, .ok ()⟩

/-- A result that nothing was logged on the way to. -/
def ofExcept {ε α : Type} (result : Except ε α) : Traced ε α := ⟨[], result⟩

/-- Goes on with a value. After a fault nothing more is logged. -/
def andThen {ε α β : Type} (t : Traced ε α) (next : α → Traced ε β) : Traced ε β :=
  match t.result with
  | .error fault => ⟨t.events, .error fault⟩
  | .ok a => ⟨t.events ++ (next a).events, (next a).result⟩

instance {ε : Type} : Monad (Traced ε) where
  pure a := ⟨[], .ok a⟩
  bind := andThen

instance {ε : Type} : MonadExcept ε (Traced ε) where
  throw fault := ⟨[], .error fault⟩
  tryCatch t handle :=
    match t.result with
    | .error fault => ⟨t.events ++ (handle fault).events, (handle fault).result⟩
    | .ok _ => t

/-- Gives a fault another form. -/
def mapError {ε ε' α : Type} (f : ε → ε') (t : Traced ε α) : Traced ε' α :=
  ⟨t.events, t.result.mapError f⟩

/-- Goes through a list, up to the first fault. -/
def forEach {ε α β : Type} (f : α → Traced ε β) : List α → Traced ε (List β)
  | [] => ⟨[], .ok []⟩
  | a :: rest => do
    let b ← f a
    return b :: (← forEach f rest)

/-! What is logged on the way does not influence the result. These lemmas forget the events,
so that a traced computation can be taken apart as the steps that may fail. -/

section Results

variable {ε ε' α β : Type}

@[simp] theorem result_pure (a : α) : (pure a : Traced ε α).result = .ok a := rfl

@[simp] theorem result_note (events : List Event) :
    (note events : Traced ε Unit).result = .ok () := rfl

@[simp] theorem result_ofExcept (result : Except ε α) :
    (ofExcept result).result = result := rfl

@[simp] theorem result_mapError (f : ε → ε') (t : Traced ε α) :
    (t.mapError f).result = t.result.mapError f := rfl

/-- The result of two steps in a row. -/
@[simp] theorem result_bind (t : Traced ε α) (next : α → Traced ε β) :
    (t >>= next).result = t.result >>= fun a => (next a).result := by
  obtain ⟨events, result⟩ := t
  cases result <;> rfl

/-- The result of a step for each member of a list. -/
@[simp] theorem result_forEach (f : α → Traced ε β) (as : List α) :
    (forEach f as).result = as.mapM fun a => (f a).result := by
  induction as with
  | nil => rfl
  | cons a as ih =>
    rw [forEach, List.mapM_cons, ← ih]
    simp only [result_bind, result_pure]
    rfl

end Results

end Traced

end ApiSurface
