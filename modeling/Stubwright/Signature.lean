import Stubwright.JavaType

/-!
Signatures of methods: a name and the parameter types. The type that declares a method is carried
along but takes no part in comparisons. Signatures are ordered by name, then by the number of
parameters, then by the parameters' binary names from left to right.
-/
namespace Stubwright

structure Signature where
  name : String
  parameters : List JavaType
  declaringType : String
deriving DecidableEq, Repr

namespace Signature

def parameterNames (signature : Signature) : List String :=
  signature.parameters.map JavaType.binaryName

def compare (left right : Signature) : Ordering :=
  (Ord.compare left.name right.name).then <|
    (Ord.compare left.parameters.length right.parameters.length).then <|
      Ord.compare left.parameterNames right.parameterNames

/-- Equal names and equal parameters, whatever the declaring types. -/
def same (left right : Signature) : Bool :=
  left.compare right == .eq

def text (signature : Signature) : String :=
  signature.name ++ "(" ++ ", ".intercalate signature.parameterNames ++ ")"

end Signature

/-- Signatures in rising order, no two of them the same. -/
structure SignatureSet where
  members : List Signature
deriving Repr

namespace SignatureSet

def empty : SignatureSet := ⟨[]⟩

def insertInto? (signature : Signature) : List Signature → Option (List Signature)
  | [] => some [signature]
  | first :: rest =>
      match signature.compare first with
      | .lt => some (signature :: first :: rest)
      | .eq => none
      | .gt => (insertInto? signature rest).map (first :: ·)

/-- The set with one signature more, unless it holds the same signature already. -/
def insert? (set : SignatureSet) (signature : Signature) : Option SignatureSet :=
  (insertInto? signature set.members).map SignatureSet.mk

end SignatureSet

end Stubwright
