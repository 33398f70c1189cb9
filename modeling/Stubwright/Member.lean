import Stubwright.Modifiers
import Stubwright.Signature

namespace Stubwright

structure Method where
  name : String
  /-- Binary name of the type that declares the method. -/
  declaringType : String
  returnType : JavaType
  parameters : List JavaType
  exceptions : List JavaType
  modifiers : Modifiers
deriving DecidableEq, Repr

structure Constructor where
  parameters : List JavaType
  exceptions : List JavaType
  modifiers : Modifiers
deriving DecidableEq, Repr

/-- Whether a member takes a variable number of arguments. The flag means nothing without a
parameter to apply it to. -/
def isVariadic (modifiers : Modifiers) (parameters : List JavaType) : Bool :=
  modifiers.has .variableArity && !parameters.isEmpty

namespace Method

def isAbstract (method : Method) : Bool :=
  method.modifiers.has .abstractMember

def isPublic (method : Method) : Bool :=
  method.modifiers.has .publicAccess

def isPrivate (method : Method) : Bool :=
  method.modifiers.has .privateAccess

def isStatic (method : Method) : Bool :=
  method.modifiers.has .staticMember

def isVariadic (method : Method) : Bool :=
  Stubwright.isVariadic method.modifiers method.parameters

def signature (method : Method) : Signature :=
  ⟨method.name, method.parameters, method.declaringType⟩

/-- A method that source code can see: neither an initializer nor a compiler's addition. -/
def isMember (method : Method) : Bool :=
  method.name.toList.head? != some '<' && !method.modifiers.isHidden

end Method

namespace Constructor

def arity (constructor : Constructor) : Nat :=
  constructor.parameters.length

def isPrivate (constructor : Constructor) : Bool :=
  constructor.modifiers.has .privateAccess

def isVariadic (constructor : Constructor) : Bool :=
  Stubwright.isVariadic constructor.modifiers constructor.parameters

end Constructor

/-- Of methods with the same signature only the first stays; those in `seen` count as earlier. -/
def firstBySignature (seen : SignatureSet) : List Method → List Method
  | [] => []
  | method :: rest =>
      match seen.insert? method.signature with
      | none => firstBySignature seen rest
      | some seen => method :: firstBySignature seen rest

end Stubwright
