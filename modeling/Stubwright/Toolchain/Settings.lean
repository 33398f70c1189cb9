import Stubwright.Json.Record

namespace Stubwright

structure BuildSettings where
  /-- The compiler, or a home directory of its kit; searched for if there is none. -/
  compiler : Option String := none
  release : Option Nat := none
  /-- Arguments in front of all others. -/
  options : List String := []
  /-- Class path entries in front of all others. -/
  classPath : List String := []
deriving DecidableEq, Repr, Inhabited

namespace BuildSettings

def releaseLimit : Nat := Nat.pow 2 32

def fields : List (Json.Field BuildSettings) :=
  [ .optional "javac" (Json.asOption Json.asString) fun compiler settings =>
      { settings with compiler },
    .optional "release" (Json.asOption (Json.asNatural releaseLimit)) fun release settings =>
      { settings with release },
    .optional "compiler_options" (Json.asList Json.asString) fun options settings =>
      { settings with options },
    .optional "classpath" (Json.asList Json.asString) fun classPath settings =>
      { settings with classPath } ]

def ofJson : Json → Except Json.Fault BuildSettings :=
  Json.asRecord fields {}

end BuildSettings

end Stubwright
