import ApiSurface.Wire.Decode
import ApiSurface.Wire.Encode

/-!
# Modules

The module that a symbol graph was extracted from, with the platform it was built for.
Modules and systems have versions: three numbers, of which only the first must be given, and
possibly the names of a pre-release and a build.

## Main definitions

* `Version`, `Module`, `Platform`, `OperatingSystem`, with their shapes.
* `Version.display`, `Version.order`: the usual notation, and the order component by component.
* `Module.bystanderSet`: the distinct bystanders of a module.
* `Platform.hasEnvironment`: whether a build is a variant for another environment.
-/

namespace ApiSurface

open Wire

/-! ### Versions -/

/-- A version. -/
structure Version where
  major : UInt32
  minor : UInt32
  patch : UInt32
  prerelease : Option String
  buildMetadata : Option String
  deriving DecidableEq

namespace Version

/-- How a version is written. -/
def shape : Shape Version :=
  .record "SemanticVersion"
    (.required "major" .word32 <| .defaulted "minor" .word32 0 <|
      .defaulted "patch" .word32 0 <|
      .optional "prerelease" .text <| .optional "buildMetadata" .text .done)
    (fun (major, minor, patch, prerelease, buildMetadata, ()) =>
      ⟨major, minor, patch, prerelease, buildMetadata⟩)
    (fun v => (v.major, v.minor, v.patch, v.prerelease, v.buildMetadata, ()))
    (fun _ => rfl)

/-- The usual notation, such as `1.2.3-beta+5`. -/
def display (v : Version) : String :=
  toString v.major ++ "." ++ toString v.minor ++ "." ++ toString v.patch ++
    (match v.prerelease with | some pre => "-" ++ pre | none => "") ++
    (match v.buildMetadata with | some build => "+" ++ build | none => "")

/-- The order of versions: by their numbers, then by pre-release, then by build. What is
missing comes before what is given. -/
def order (v w : Version) : Ordering :=
  (compare v.major w.major).then <| (compare v.minor w.minor).then <|
    (compare v.patch w.patch).then <| (compare v.prerelease w.prerelease).then <|
      compare v.buildMetadata w.buildMetadata

end Version

/-! ### Operating systems -/

/-- The operating system of a build. -/
structure OperatingSystem where
  name : String
  minimumVersion : Option Version
  deriving DecidableEq

/-- How an operating system is written. -/
def OperatingSystem.shape : Shape OperatingSystem :=
  .record "OperatingSystem" (.required "name" .text <|
    .optional "minimumVersion" Version.shape .done)
    (fun (name, minimumVersion, ()) => ⟨name, minimumVersion⟩)
    (fun os => (os.name, os.minimumVersion, ()))
    (fun _ => rfl)

/-! ### Platforms -/

/-- What a module was built for. -/
structure Platform where
  architecture : Option String
  vendor : Option String
  operatingSystem : Option OperatingSystem
  environment : Option String
  deriving DecidableEq

namespace Platform

/-- The platform of which nothing is known. -/
def unknown : Platform := ⟨none, none, none, none⟩

/-- How a platform is written. -/
def shape : Shape Platform :=
  .record "Platform"
    (.optional "architecture" .text <| .optional "vendor" .text <|
      .optional "operatingSystem" OperatingSystem.shape <| .optional "environment" .text .done)
    (fun (architecture, vendor, operatingSystem, environment, ()) =>
      ⟨architecture, vendor, operatingSystem, environment⟩)
    (fun p => (p.architecture, p.vendor, p.operatingSystem, p.environment, ()))
    (fun _ => rfl)

/-- The environment of builds that run on another operating system than the one built for. -/
def catalystEnvironment : String := "macabi"

/-- Whether the build is for an environment other than the usual one. -/
def hasEnvironment (p : Platform) : Bool := p.environment.any fun e => !e.isEmpty

/-- Whether the build is for the Catalyst environment. -/
def isCatalyst (p : Platform) : Bool := p.environment == some catalystEnvironment

/-- The name of the operating system, if it is known. -/
def systemName (p : Platform) : Option String := p.operatingSystem.map OperatingSystem.name

end Platform

/-! ### Modules -/

/-- A module. Bystanders are the modules together with which it is imported in a
cross-import. -/
structure Module where
  name : String
  platform : Platform
  bystanders : Option (List String)
  isVirtual : Bool
  deriving DecidableEq

namespace Module

/-- How a module is written. -/
def shape : Shape Module :=
  .record "Module"
    (.required "name" .text <| .defaulted "platform" Platform.shape Platform.unknown <|
      .optional "bystanders" (.list .text) <| .mark "isVirtual" .done)
    (fun (name, platform, bystanders, isVirtual, ()) => ⟨name, platform, bystanders,
      isVirtual⟩)
    (fun m => (m.name, m.platform, m.bystanders, m.isVirtual, ()))
    (fun _ => rfl)

/-- The bystanders in increasing order, each once. -/
def bystanderSet (m : Module) : List String := distinct (m.bystanders.getD [])

/-- Whether the module names any bystanders. -/
def hasBystanders (m : Module) : Bool := m.bystanders.any fun names => !names.isEmpty

end Module

end ApiSurface
