import ApiSurface.Decimal.Digits
import ApiSurface.Log.Event
import ApiSurface.Text.Words

/-!
# Filters

A filter says which events go into a log. It is a list of rules, each with a number of
levels. A rule may be for targets that begin in a certain way, and for events that have a
certain field. Of the rules that apply to an event the most specific one decides: the one
with the longest target, and with one target the one that asks for a field.

A rule may also be for what happens inside a span, or for a value of a field that a span
has. No event of this library happens inside a span, so such a rule applies to none of them.

The value of a field may be asked for by a regular expression. No event has such a value, so
an expression is never matched here; but one that is not well-formed makes the whole filter
unreadable. What is checked is its form: groups and classes are closed, what is repeated is
there, and a backslash stands before a sign or a letter that has a meaning. The borders of
words, which need to look at what comes before, are refused.

## Main definitions

* `isPattern`: whether a text is a well-formed expression.
* `Rule`, `Filter`: rules and filters; `Filter.admits`: whether an event goes into the log.
* `Rule.ofText?`, `Filter.ofText?`: reading them.
* `Filter.ofSetting`: the filter of an environment.
-/

namespace ApiSurface

/-! ### Patterns -/

namespace Pattern

/-- Whether a backslash may stand before a character. -/
def isEscapable (c : Char) : Bool :=
  if c.isAlphanum then c ∈ "aftnrvAzdDsSwWxuU".toList else c.toNat < 128

/-- Where a walk over an expression is. -/
inductive Region
  /-- Outside of classes; whether there is something that may be repeated. -/
  | expression (repeatable : Bool)
  /-- At the start of a class, where a closing bracket stands for itself. -/
  | classStart (outer : Nat)
  /-- Inside a class, which is in so many other ones. -/
  | insideClass (outer : Nat)

/-- Walks over an expression of which some groups are open. -/
def check (groups : Nat) : Region → List Char → Bool
  | .expression _, [] => groups = 0
  | _, [] => false
  | .expression _, '\\' :: c :: rest => isEscapable c && check groups (.expression true) rest
  | .classStart outer, '\\' :: c :: rest | .insideClass outer, '\\' :: c :: rest =>
    isEscapable c && check groups (.insideClass outer) rest
  | .expression repeatable, c :: rest =>
    match c with
    | '\\' => false
    | '(' => check (groups + 1) (.expression (rest.head? = some '?')) rest
    | ')' => groups ≠ 0 && check (groups - 1) (.expression true) rest
    | '[' => check groups (.classStart 0) rest
    | '|' => check groups (.expression false) rest
    | '*' | '+' | '?' => repeatable && check groups (.expression true) rest
    | '\x7b' => false
    | _ => check groups (.expression true) rest
  | .classStart outer, '^' :: ']' :: rest | .classStart outer, ']' :: rest =>
    check groups (.insideClass outer) rest
  | .classStart outer, '[' :: rest | .insideClass outer, '[' :: rest =>
    check groups (.classStart (outer + 1)) rest
  | .insideClass 0, ']' :: rest => check groups (.expression true) rest
  | .insideClass (outer + 1), ']' :: rest => check groups (.insideClass outer) rest
  | .classStart outer, _ :: rest | .insideClass outer, _ :: rest =>
    check groups (.insideClass outer) rest

end Pattern

/-- Whether a text is a well-formed expression. -/
def isPattern (text : List Char) : Bool := Pattern.check 0 (.expression false) text

/-! ### Rules -/

/-- Which events a rule is for, their targets aside. -/
inductive Scope
  | everywhere
  /-- Events that have a field. -/
  | field (name : List Char)
  /-- What happens inside a span. -/
  | span
  deriving DecidableEq

/-- A rule of a filter. -/
structure Rule where
  /-- What the targets begin with that the rule is for. -/
  target : List Char
  /-- Which events of those targets the rule is for. -/
  scope : Scope
  /-- The number of levels that go into the log. -/
  levels : Nat
  deriving DecidableEq

namespace Rule

/-- The one field that every event has. -/
def messageField : List Char := "message".toList

/-- Whether a rule is for an event. -/
def applies (rule : Rule) (event : Event) : Bool :=
  rule.target.isPrefixOf event.target.toList &&
    match rule.scope with
    | .everywhere => true
    | .field name => name = messageField
    | .span => false

/-- How specific a rule is: by its target, then by the fields it asks for. -/
def specificity (rule : Rule) : Nat × Nat :=
  (rule.target.length, match rule.scope with | .field _ => 1 | _ => 0)

/-- Whether a rule is less specific than another one. -/
def yieldsTo (rule other : Rule) : Bool :=
  (compareLex (compareOn Prod.fst) (compareOn Prod.snd)
    rule.specificity other.specificity).isLT

/-! ### Reading rules -/

/-- The number of all levels. -/
def allLevels : Nat := 5

/-- The number of levels that a word stands for: a name, or the number itself. -/
def levels? (word : List Char) : Option Nat :=
  match countOf word with
  | .ok n => if n ≤ allLevels then some n else none
  | .error _ =>
    [("off", 0), ("error", 1), ("warn", 2), ("info", 3), ("debug", 4), ("trace", 5)].lookup
      (Text.lowerAscii (String.ofList word))

/-- Whether a rule may begin with a character, if not with a bracket. -/
def isTargetStart (c : Char) : Bool := c = '-' || c = ':' || c = '_' || Text.isAlphanumeric c

/-- The number of levels of a rule, from what follows its target and scope and from the same
part of the text as it was given. Without a word for them all levels are meant. -/
def ending? (rest given : List Char) : Option Nat :=
  match rest, given with
  | [], _ | '=' :: _, [_] => some allLevels
  | '=' :: _, _ :: word => levels? word
  | _, _ => none

/-- The scope for a field: a field with a value is that of a span. -/
def fieldScope? (inSpan : Bool) (name : List Char) : Option Scope :=
  match Text.pieces '=' name with
  | (_, value :: _) => if (countOf value).toBool || isPattern value then some .span else none
  | (_, []) => some (if inSpan then .span else .field name)

/-- The scope between brackets: its length, and the scope itself, with its words taken from
the same part of the text as it was given. -/
def scope? (rest given : List Char) : Option (Nat × Scope) :=
  let name := rest.takeWhile fun c => c ≠ ']' && c ≠ '\x7b'
  match rest.drop name.length with
  | ']' :: _ => some (name.length + 1, .span)
  | '\x7b' :: fields =>
    let field := fields.takeWhile (· ≠ '\x7d')
    match field, fields.drop field.length with
    | _ :: _, '\x7d' :: ']' :: _ =>
      let word := (given.drop (name.length + 1)).take field.length
      (fieldScope? (!name.isEmpty) word).map fun scope =>
        (name.length + field.length + 3, scope)
    | _, _ => none
  | _ => none

/-- Reads a rule: a level, or a target or a scope or both, possibly with a level. The parts
are found in the text without the blanks at its ends, but each is taken from the text as it
was given, at the same distance from its start and up to its end. So a blank at either end
becomes part of a word. -/
def ofText? (s : String) : Option Rule := do
  let given := s.toList
  let text := Text.trimmed given
  let target := text.takeWhile fun c => c ≠ '=' && c ≠ '['
  guard (text.head?.any fun c => c = '[' || isTargetStart c)
  let length := target.length
  match text.drop length with
  | [] =>
    match levels? given with
    | some levels => return ⟨[], .everywhere, levels⟩
    | none => return ⟨given, .everywhere, allLevels⟩
  | '[' :: rest =>
    let (scopeLength, scope) ← scope? rest (given.drop (length + 1))
    let before := length + 1 + scopeLength
    return ⟨given.take length, scope, ← ending? (text.drop before) (given.drop before)⟩
  | rest => return ⟨given.take length, .everywhere, ← ending? rest (given.drop length)⟩

end Rule

/-! ### Filters -/

/-- A filter: rules, of which a later one replaces an earlier one that is as specific. -/
abbrev Filter := List Rule

namespace Filter

/-- The rule that decides on an event, if there is one. -/
def decisive? (filter : Filter) (event : Event) : Option Rule :=
  (filter.filter fun rule => rule.applies event).foldl
    (fun best rule =>
      match best with
      | some other => if rule.yieldsTo other then best else some rule
      | none => some rule)
    none

/-- Whether an event goes into the log. -/
def admits (filter : Filter) (event : Event) : Bool :=
  match filter.decisive? event with
  | some rule => event.level.rank ≤ rule.levels
  | none => false

/-- Reads a filter: rules between commas. A filter without rules admits errors. -/
def ofText? (s : String) : Option Filter :=
  match (Text.splitText ',' s).filter fun piece => !piece.isEmpty with
  | [] => some [⟨[], .everywhere, 1⟩]
  | pieces => pieces.mapM Rule.ofText?

/-- The filter if nothing else is set: warnings, and what the parts of this library report. -/
def usual : Filter :=
  [⟨[], .everywhere, 2⟩, ⟨"symgraph_ingest".toList, .everywhere, 3⟩,
    ⟨"symgraph_core".toList, .everywhere, 3⟩]

/-- The filter that a variable of the environment sets. One that cannot be read
counts as unset. -/
def ofSetting (setting : Option String) : Filter := (setting.bind ofText?).getD usual

end Filter

end ApiSurface
