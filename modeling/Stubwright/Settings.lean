import Stubwright.Disk.World
import Stubwright.Failure
import Stubwright.Stub.Settings
import Stubwright.Toml.Document
import Stubwright.Toolchain.Settings

/-!
The settings of a whole run, as a configuration file gives them. What a file leaves out keeps its
default, and relative paths in a file start from the directory of the file.
-/
namespace Stubwright

open Disk

structure LookupSettings where
  classPath : List String := []
  catalogs : List String := []
  /-- Whether the platform's own classes are on the class path. -/
  usesKit : Bool := true
deriving DecidableEq, Repr, Inhabited

namespace LookupSettings

def fields : List (Json.Field LookupSettings) :=
  [ .optional "classpath" (Json.asList Json.asString) fun classPath settings =>
      { settings with classPath },
    .optional "catalogs" (Json.asList Json.asString) fun catalogs settings =>
      { settings with catalogs },
    .optional "jdk_modules" Json.asBool fun usesKit settings => { settings with usesKit } ]

end LookupSettings

structure Settings where
  stub : StubSettings := {}
  lookup : LookupSettings := {}
  build : BuildSettings := {}
deriving DecidableEq, Repr, Inhabited

namespace Settings

/-- A section with its fields by name, or in their order; what follows them does not count. -/
def asSection (fields : List (Json.Field α)) (default : α) : Json → Except Json.Fault α
  | .array items => (items.take fields.length).asRecord fields default
  | other => other.asRecord fields default

def fields : List (Json.Field Settings) :=
  [ .optional "codegen" (asSection StubSettings.fields {}) fun stub settings =>
      { settings with stub },
    .optional "introspect" (asSection LookupSettings.fields {}) fun lookup settings =>
      { settings with lookup },
    .optional "build" (asSection BuildSettings.fields {}) fun build settings =>
      { settings with build } ]

def ofText? (text : String) : Option Settings :=
  (Toml.ofText? text).bind fun document => (document.asRecord fields {}).toOption

def parse (text : String) : Except Failure Settings :=
  match ofText? text with
  | some settings => .ok settings
  | none => .error (.invalidArgument .badConfiguration)

/-- The settings with every relative path seen from a directory. -/
def rebase (directory : String) (settings : Settings) : Settings :=
  let moved := Path.join directory
  { settings with
    lookup :=
      { settings.lookup with
        classPath := settings.lookup.classPath.map moved
        catalogs := settings.lookup.catalogs.map moved }
    build :=
      { settings.build with
        compiler := settings.build.compiler.map moved
        classPath := settings.build.classPath.map moved } }

def load (world : World) (path : String) : Except Failure Settings :=
  match world.readText path with
  | .error _ => .error (.invalidArgument (.unreadableConfiguration path))
  | .ok text =>
      match ofText? text with
      | none => .error (.invalidArgument (.badConfigurationFile path))
      | some settings =>
          match Path.parent? path with
          | some directory => .ok (settings.rebase directory)
          | none => .ok settings

/-- The name of a configuration file that nobody asks for. -/
def defaultFileName : String := "implgen.toml"

/-- The settings of the file that was asked for, or of the one in a directory if there is one. -/
def resolve (world : World) (wanted : Option String) (directory : String) :
    Except Failure Settings :=
  match wanted with
  | some path => load world path
  | none =>
      let path := Path.join directory defaultFileName
      if world.isFile path then load world path else .ok {}

end Settings

end Stubwright
