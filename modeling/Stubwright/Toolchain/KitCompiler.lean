import Stubwright.Toolchain.Compiler
import Stubwright.Toolchain.Kit
import Stubwright.Toolchain.Settings

namespace Stubwright

open Disk Toolchain Text

namespace BuildSettings

/-- The class path of a job as one argument, which no entry may break. -/
def classPathArguments (entries : List String) : Except CompileFault (List String) :=
  if entries.isEmpty then .ok []
  else if entries.any (·.toList.contains ':') then .error .separatorInClassPath
  else .ok ["-cp", ":".intercalate entries]

def arguments (settings : BuildSettings) (job : CompileJob) :
    Except CompileFault (List String) := do
  let release := match settings.release with
    | some release => ["--release", toString release]
    | none => []
  let classPath ← classPathArguments (settings.classPath ++ job.classPath)
  pure (settings.options ++ release ++ ["-d", job.outputDirectory] ++ classPath ++ [job.unitPath])

def diagnosticsOf (result : ProgramResult) : String :=
  let errors := trim (Utf8.decodeLossy result.errors)
  String.ofList (if errors.isEmpty then trim (Utf8.decodeLossy result.output) else errors)

/-- The status of a run; a program that was killed has none and counts as failed. -/
def statusOf (result : ProgramResult) : Int :=
  match result.exitStatus with
  | some status => status
  | none => -1

def compileWith (runner : Runner) (settings : BuildSettings) (job : CompileJob) :
    Action CompileFault CompileOutcome := do
  let kit ← (Kit.discover runner settings.compiler).adapt .noKit
  match settings.release.map kit.checkRelease with
  | some (.error fault) => throw (.noKit fault)
  | _ => pure ()
  let arguments ← settings.arguments job
  let result ← (runner kit.compilerPath arguments).adapt (.cannotRun kit.compilerPath)
  pure { status := statusOf result, diagnostics := diagnosticsOf result }

def compilerFor (runner : Runner) (settings : BuildSettings) : Compiler := fun job =>
  (settings.compileWith runner job).adapt (.compileFailure job.unitPath)

end BuildSettings

end Stubwright
