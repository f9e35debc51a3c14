import ApiSurface.Model.Module
import ApiSurface.Naming.GraphName

/-!
# Roles

The role of a symbol graph tells which module its symbols belong to. It follows from the
name of the file together with the module that the file declares. Graphs of one role
describe the same module for different platforms.

## Main definitions

* `Role`: a role; `Role.value`: how it is written.
* `GraphName.role`: the role of a file.
* `Role.Listing`: the order in which graphs are listed.
-/

namespace ApiSurface

open Std Json

/-- What the symbols of a graph belong to. -/
inductive Role
  /-- A module. -/
  | main (module : String)
  /-- A module together with others, which are in increasing order. -/
  | bystander (module : String) (bystanders : List String)
  /-- What a module adds to another one. -/
  | extension (extending extended : String)
  deriving DecidableEq

namespace Role

/-- The module that the graph is grouped under. -/
def moduleName : Role → String
  | main module | bystander module _ => module
  | extension _ extended => extended

/-- Whether the symbols are those of a module itself. -/
def isMain : Role → Bool
  | extension _ _ => false
  | _ => true

/-- The module that adds the symbols, if they are added to another one. -/
def extending? : Role → Option String
  | extension extending _ => some extending
  | _ => none

/-- The bystanders, if there are any. -/
def bystanders? : Role → Option (List String)
  | bystander _ bystanders => some bystanders
  | _ => none

/-- How a role is written. -/
def value : Role → Value
  | main module => .object [("role", .text "main"), ("module", .text module)]
  | bystander module bystanders =>
    .object [("role", .text "bystander"), ("module", .text module),
      ("bystanders", .array (bystanders.map Value.text))]
  | extension extending extended =>
    .object [("role", .text "extension"), ("extending", .text extending),
      ("extended", .text extended)]

/-! ### Order of roles -/

/-- The place of a kind of role among the kinds. -/
def kind : Role → Nat
  | main _ => 0
  | bystander _ _ => 1
  | extension _ _ => 2

/-- The module that the symbols were authored in, by the role alone. -/
def author : Role → String
  | main module | bystander module _ => module
  | extension extending _ => extending

/-- The other modules of a role. -/
def others : Role → List String
  | main _ => []
  | bystander _ bystanders => bystanders
  | extension _ extended => [extended]

/-- Roles are in order of their kind, then of their modules. -/
instance : Ord Role :=
  ⟨compareLex (compareOn kind) (compareLex (compareOn author) (compareOn others))⟩

instance : TransOrd Role :=
  inferInstanceAs
    (TransCmp (compareLex (compareOn kind) (compareLex (compareOn author) (compareOn others))))

/-- A role, in the order in which graphs are listed. -/
structure Listing where
  role : Role

namespace Listing

/-- The module that the role is listed under. -/
def moduleName (l : Listing) : String := l.role.moduleName

/-- Whether the role is listed after those of the module itself. -/
def isLate (l : Listing) : Bool := !l.role.isMain

/-- The extending module of the role. -/
def extending? (l : Listing) : Option String := l.role.extending?

/-- The bystanders of the role. -/
def bystanders? (l : Listing) : Option (List String) := l.role.bystanders?

/-- Roles are listed by module, a module itself before what others add to it, and what is
missing before what is given. -/
instance : Ord Listing :=
  ⟨compareLex (compareOn moduleName)
    (compareLex (compareOn isLate) (compareLex (compareOn extending?)
      (compareOn bystanders?)))⟩

instance : TransOrd Listing :=
  inferInstanceAs (TransCmp (compareLex (compareOn moduleName)
    (compareLex (compareOn isLate) (compareLex (compareOn extending?)
      (compareOn bystanders?)))))

end Listing

end Role

/-! ### The role of a file -/

/-- The role of a file with a name that declares a module. If the module has bystanders, the
name does not matter; else the last segment of a longer name is the extending module. -/
def GraphName.role (name : GraphName) (module : Module) : Role :=
  if module.hasBystanders then .bystander module.name module.bystanderSet
  else
    match name with
    | main _ => .main module.name
    | extension extending extended => .extension extending extended
    | compound first _ last => .extension last first

/-- Whether the declared name of a module is used in place of the one in
the name of its file. -/
def GraphName.isOverruled (name : GraphName) (module : Module) : Bool :=
  match name with
  | main fromName => !module.hasBystanders && fromName != module.name
  | _ => false

end ApiSurface
