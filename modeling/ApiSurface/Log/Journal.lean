import ApiSurface.Failure
import ApiSurface.Log.Filter

/-!
# Journals

A journal is a log that is kept in a directory, in one file for each component and day.

## Main definitions

* `Journal.directory`: where journals are kept.
* `Journal.write`: writing into the file of a day.
* `Journal.install`: choosing the journal of a program, which can be done once.
* `Journal.record`: writing events into the journal.
-/

namespace ApiSurface

/-- A journal: where it is kept, and which events go into it. -/
structure Journal where
  /-- The file of the journal. -/
  file : Path
  filter : Filter

namespace Journal

/-- Names the directory for journals. -/
def directoryVariable : String := "SYMGRAPH_LOG_DIR"

/-- Names the home directory. -/
def homeVariable : String := "HOME"

/-- Where journals are kept: the directory that the environment names, or one in the home
directory. -/
def directory (lookup : Lookup) : Path :=
  let set (variableName : String) := (lookup variableName).filter fun value => !value.isEmpty
  match set directoryVariable with
  | some directory => .ofText directory
  | none =>
    let home := Path.ofText ((set homeVariable).getD ".")
    (home.join (.ofText ".symgraph")).join (.ofText "logs")

/-- The name of the file of a component for a day. -/
def fileName (component day : String) : String :=
  if component.isEmpty then day else component ++ "." ++ day

/-- The file of a component for a day. -/
def filePath (directory : Path) (component day : String) : Path :=
  directory.join (.ofText (fileName component day))

/-- Puts a text at the end of a file. If there is no such file it is made, and the
directories above it too if that is what is missing. -/
def append (disk : Disk) (file : Path) (text : List UInt8) : Except FileFault Disk :=
  let contents := (disk.read file).toOption.getD [] ++ text
  match disk.write file contents with
  | .ok disk => .ok disk
  | .error _ => do
    let disk ← disk.makeEach file.above
    disk.write file contents

/-- Writes texts, one right after the other, into the file of a component for a day. -/
def write (disk : Disk) (directory : Path) (component day : String) (texts : List String) :
    Except Failure Disk := do
  let disk ← (disk.makeDirectories directory).mapError .file
  (append disk (filePath directory component day) (texts.flatMap Text.bytes)).mapError .file

/-- Makes a journal that of the program, unless it has one: the journal, and the disk with
an empty file for it. -/
def install (current : Option Journal) (setting : Option String) (disk : Disk)
    (directory : Path) (component day : String) : Except Failure (Journal × Disk) := do
  let disk ← write disk directory component day []
  match current with
  | some _ => throw .alreadyLogging
  | none => return (⟨filePath directory component day, Filter.ofSetting setting⟩, disk)

/-- Writes into a journal those of some events that go into it, each on a line of its own. -/
def record (journal : Journal) (disk : Disk) (events : List Event) : Except FileFault Disk :=
  let line (event : Event) : List UInt8 := Text.bytes (event.line ++ "\n")
  append disk journal.file ((events.filter journal.filter.admits).flatMap line)

end Journal

end ApiSurface
