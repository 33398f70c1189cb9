import Stubwright.Disk.Path
import Stubwright.Stub.Settings
import Stubwright.TypeName

/-!
Where a generated class goes: its source file below an output root, its class file below a directory
for compiled classes, and its entry in an archive. All three follow the package of the target.
-/
namespace Stubwright

open Disk

structure Target where
  root : String
  packageDirectory : String
  unitPath : String
  /-- The class file as seen from a directory for compiled classes. -/
  artifactPath : String
deriving DecidableEq, Repr

namespace Target

def packagePath (name : TypeName) : String :=
  Path.ofSegments name.packageSegments

def resolve (settings : StubSettings) (root : String) (name : TypeName) : Target :=
  let className := settings.className name.simpleName
  let packageDirectory := Path.join root (packagePath name)
  { root
    packageDirectory
    unitPath := Path.join packageDirectory (className ++ "." ++ settings.extension)
    artifactPath := Path.join (packagePath name) (className ++ ".class") }

def entryName (target : Target) : String :=
  "/".intercalate (Path.components target.artifactPath)

end Target

end Stubwright
