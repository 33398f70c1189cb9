import Stubwright.Text.Blank
import Stubwright.Text.Utf8
import Stubwright.Toolchain.Runner
import Stubwright.Toolchain.Version

namespace Stubwright.Toolchain

open Disk Text

structure Kit where
  compilerPath : String
  home : Option String
  /-- Known if a launcher stands beside the compiler. -/
  majorVersion : Option Nat
deriving DecidableEq, Repr

namespace Kit

/-- Fails for a kit that is known to be older than a release. -/
def checkRelease (kit : Kit) (release : Nat) : Except KitFault Unit :=
  match kit.majorVersion with
  | some version => if version < release then .error (.tooOld version release) else .ok ()
  | none => .ok ()

/-- The compiler that a path means: the file itself, or the one in a home directory or in its `bin`.
-/
def compilerAt? (world : World) (path : String) : Option String :=
  let below := Path.ofSegments [path, "bin", "javac"]
  let beside := Path.join path "javac"
  if world.isFile path then some path
  else if world.isFile below then some below
  else if Path.fileName? path = some "bin" && world.isFile beside then some beside
  else none

def compilerOfVariable? (world : World) (name : String) : Option String :=
  (world.environmentValue? name).bind (compilerAt? world)

/-- The home of the user if the environment names none. -/
def defaultHome : String := "/root"

/-- The home of the user. A variable without a value names none. -/
def homeDirectory (environment : List (String × String)) : String :=
  ((environment.lookup "HOME").filter (· != "")).getD defaultHome

/-- A directory of the search path; a tilde at its front stands for the home of the user. -/
def searchDirectory (home directory : String) : String :=
  match Path.components directory with
  | "~" :: below => below.foldl Path.join home
  | _ => directory

def searched (environment : List (String × String)) (searchPath name : String) : List String :=
  let home := homeDirectory environment
  (Path.searchDirectories searchPath).map fun directory =>
    Path.join (searchDirectory home directory) name

def compilerInPath? (world : World) : Option String :=
  (world.environmentValue? "PATH").bind fun searchPath =>
    (searched world.environment searchPath "javac").find? world.isExecutable

def installationRoots : List String :=
  ["/usr/lib/jvm", "/usr/java", "/opt/java", "/opt/jdk"]

def compilerBelow? (world : World) (root : String) : Option String :=
  if !world.isDirectory root then none
  else
    match compilerAt? world root with
    | some path => some path
    | none =>
        let names := (world.entryNames root).toOption.getD []
        ((names.map (Path.join root)).filter world.isDirectory).findSome? fun directory =>
          let inner := Path.ofSegments [directory, "Contents", "Home"]
          compilerAt? world (if world.isDirectory inner then inner else directory)

def compilerAround? (world : World) : Option String :=
  (["JAVA_HOME", "JDK_HOME"].findSome? (compilerOfVariable? world)).or
    ((compilerInPath? world).or (installationRoots.findSome? (compilerBelow? world)))

def findCompiler (world : World) : (wanted : Option String) → Except KitFault String
  | some path =>
      match compilerAt? world path with
      | some compiler => .ok compiler
      | none => .error (.notFound (.configured path))
  | none =>
      match compilerAround? world with
      | some compiler => .ok compiler
      | none => .error (.notFound .nowhere)

/-- The directory two levels above a compiler, links followed, if a launcher is beside it. -/
def homeOf? (world : World) (compiler : String) : Option String := do
  let resolved := (world.canonicalPath compiler).toOption.getD compiler
  let binaries ← Path.parent? resolved
  let home ← Path.parent? binaries
  if world.isFile (Path.join binaries "java") then some home else none

/-- What a program reports: its errors, or its output if there are none. -/
def reportOf (result : ProgramResult) : List Char :=
  let errors := Utf8.decodeLossy result.errors
  if (trim errors).isEmpty then Utf8.decodeLossy result.output else errors

def askVersion (runner : Runner) (home : String) : Action KitFault Nat := do
  let launcher := Path.ofSegments [home, "bin", "java"]
  let result ← (runner launcher ["-version"]).adapt fun fault =>
    .notFound (.cannotRun launcher fault)
  match reportedVersion (reportOf result) with
  | .ok version => pure version
  | .error fault => throw (.versionUnknown fault)

def discover (runner : Runner) (wanted : Option String) : Action KitFault Kit := do
  let compilerPath ← findCompiler (← get) wanted
  match homeOf? (← get) compilerPath with
  | none => pure { compilerPath, home := none, majorVersion := none }
  | some home =>
      let version ← askVersion runner home
      pure { compilerPath, home := some home, majorVersion := some version }

end Kit

end Stubwright.Toolchain
