import Stubwright.Stub.Settings
import Stubwright.Stub.SourceText

namespace Stubwright

inductive Relation where
  | implementing
  | extending
deriving DecidableEq, Repr

def Relation.keyword : Relation → String
  | implementing => "implements"
  | extending => "extends"

structure CompilationUnit where
  /-- Empty for the unnamed package. -/
  packageName : String
  className : String
  relation : Relation
  /-- The target as source code writes it. -/
  target : String
  constructor : Option String
  methods : List String
deriving DecidableEq, Repr

namespace CompilationUnit

def members (unit : CompilationUnit) : List String :=
  unit.constructor.toList ++ unit.methods

def qualifiedName (unit : CompilationUnit) : String :=
  if unit.packageName.isEmpty then unit.className else unit.packageName ++ "." ++ unit.className

def headLine (unit : CompilationUnit) : String :=
  "public class " ++ unit.className ++ " " ++ unit.relation.keyword ++ " " ++ unit.target ++ " \x7b"

def writeMembers (source : SourceText) : List String → SourceText
  | [] => source
  | [last] => source.writeLines last.toList
  | member :: others => writeMembers ((source.writeLines member.toList).writeLine []) others

def writePackage (unit : CompilationUnit) (source : SourceText) : SourceText :=
  if unit.packageName.isEmpty then source
  else (source.writeLine ("package " ++ unit.packageName ++ ";").toList).writeLine []

def sourceText (settings : StubSettings) (unit : CompilationUnit) : String :=
  let opened := (unit.writePackage (.start settings.indent)).writeLine unit.headLine.toList
  let filled := writeMembers opened.deeper unit.members
  (filled.shallower.writeLine ['\x7d']).text

end CompilationUnit

end Stubwright
