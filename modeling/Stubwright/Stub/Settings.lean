import Stubwright.Json.Record

namespace Stubwright

structure StubSettings where
  indent : String := "    "
  suffix : String := "Impl"
  extension : String := "java"
deriving DecidableEq, Repr, Inhabited

namespace StubSettings

def className (settings : StubSettings) (simpleName : String) : String :=
  simpleName ++ settings.suffix

def fields : List (Json.Field StubSettings) :=
  [ .optional "indent" Json.asString fun indent settings => { settings with indent },
    .optional "suffix" Json.asString fun suffix settings => { settings with suffix },
    .optional "extension" Json.asString fun extension settings => { settings with extension } ]

def ofJson : Json → Except Json.Fault StubSettings :=
  Json.asRecord fields {}

end StubSettings

end Stubwright
