import Stubwright.Catalog.Load
import Stubwright.ClassPath
import Stubwright.CommandLine.Arguments
import Stubwright.Hierarchy.Assembler
import Stubwright.Packaging
import Stubwright.Settings
import Stubwright.Toolchain.KitCompiler

namespace Stubwright

open Disk

inductive Outcome where
  | emitted (unit : EmittedUnit)
  | packaged (unit : PackagedUnit)
deriving DecidableEq, Repr

def Outcome.message : Outcome → String
  | emitted unit => s!"generated {unit.qualifiedName} at {unit.target.unitPath}"
  | packaged unit => s!"packaged {unit.qualifiedName} into {unit.archivePath}"

namespace GenerateArguments

/-- The class path of the command line, then that of the settings. -/
def userClassPath (arguments : GenerateArguments) (settings : Settings) : ClassPath :=
  (ClassPath.ofTexts arguments.classPath).append ⟨settings.lookup.classPath⟩

def loadCatalogs (world : World) (catalog : Catalog) : List String → Except Failure Catalog
  | [] => .ok catalog
  | path :: others =>
      match Catalog.load world path with
      | .error failure => .error failure
      | .ok more => loadCatalogs world (catalog.merge more) others

def kitHome (runner : Toolchain.Runner) (settings : BuildSettings) : Action Failure (Option String) := do
  match ← ExceptT.lift (Toolchain.Kit.discover runner settings.compiler).run with
  | .ok kit => pure kit.home
  | .error _ => pure none

def sources (runner : Toolchain.Runner) (arguments : GenerateArguments) (settings : Settings) :
    Action Failure Source := do
  let catalog ←
    loadCatalogs (← get) .empty (arguments.catalogs ++ settings.lookup.catalogs)
  let user := arguments.userClassPath settings
  let home ←
    if settings.lookup.usesKit && !arguments.withoutKit then kitHome runner settings.build
    else pure none
  let world ← get
  let classPath := match home with
    | some home => user.withKit world home
    | none => user
  pure (.chain [.ofCatalog catalog, classPath.source world])

def run (host : Host) (arguments : GenerateArguments) (settings : Settings) :
    Action Failure Outcome := do
  let destination ← arguments.destination
  let source ← arguments.sources host.runner settings
  let lineage ← source.describe (Text.trimmed arguments.typeName)
  match destination with
  | .directory root => .emitted <$> lineage.implement settings.stub root
  | .archive path =>
      .packaged <$> lineage.package host settings.stub (settings.build.compilerFor host.runner)
        (arguments.userClassPath settings).entries path

end GenerateArguments

end Stubwright
