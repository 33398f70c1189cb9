import Stubwright.Text.Pieces

namespace Stubwright

open Text

structure TypeName where
  binaryName : String
deriving DecidableEq, Repr, Inhabited

namespace TypeName

/-- Everything before the last period; empty if there is none. -/
def packageName (name : TypeName) : String :=
  match cutLast '.' name.binaryName.toList with
  | some (package, _) => String.ofList package
  | none => ""

/-- The name below its package and below the types that enclose it. -/
def simpleName (name : TypeName) : String :=
  String.ofList (afterLast '$' (afterLast '.' name.binaryName.toList))

def sourceName (name : TypeName) : String :=
  swapped '$' '.' name.binaryName

/-- The package's directories from the outermost inwards. Empty segments name no directory. -/
def packageSegments (name : TypeName) : List String :=
  ((cut '.' name.packageName.toList).filter (!·.isEmpty)).map String.ofList

end TypeName

end Stubwright
