import Stubwright.Failure
import Stubwright.Hierarchy.Lineage
import Stubwright.Stub.CompilationUnit
import Stubwright.Stub.Rendering

namespace Stubwright

/-- How a class calls a constructor of its superclass. -/
inductive ConstructorPlan where
  /-- The superclass can be constructed without parameters, so nothing is written. -/
  | implicit
  /-- A constructor hands its parameters on to this one. -/
  | delegating (constructor : Constructor)
deriving DecidableEq, Repr

/-- The constructor with the most parameters; of several the last. -/
def widest : List Constructor → Option Constructor
  | [] => none
  | first :: rest =>
      match widest rest with
      | none => some first
      | some later => if later.arity ≥ first.arity then some later else some first

namespace Lineage

def ineligibility? (lineage : Lineage) : Option Ineligibility :=
  match lineage.self.kind with
  | .primitiveType => some .primitiveType
  | .arrayType => some .arrayType
  | .enumType => some .enumType
  | _ =>
      if lineage.self.modifiers.has .finalMember then some .finalType
      else if lineage.self.modifiers.has .sealedType then some .sealedType
      else none

def checkEligible (lineage : Lineage) : Except Failure Unit :=
  match lineage.ineligibility? with
  | some reason => .error (.notImplementable lineage.self.name.binaryName reason)
  | none => .ok ()

/-- Private constructors cannot be called from the generated class. -/
def constructorPlan (lineage : Lineage) : Except Failure ConstructorPlan :=
  let candidates := lineage.self.constructors.filter (!·.isPrivate)
  if candidates.any (·.arity = 0) then .ok .implicit
  else
    match widest candidates with
    | some constructor => .ok (.delegating constructor)
    | none => .error (.noAccessibleConstructor lineage.self.name.binaryName)

/-- Every method that decides about a stub, in order: the public ones first, then for a class what
each level of its chain declares, members of any access among it. -/
def memberWalk (lineage : Lineage) : List Method :=
  lineage.self.publicMethods ++
    if lineage.isInterface then [] else lineage.classChain.flatMap (·.methods)

def abstractMembers (lineage : Lineage) : List Method :=
  (firstBySignature .empty lineage.memberWalk).filter Method.isAbstract

def constructorStub (settings : StubSettings) (lineage : Lineage) :
    Except Failure (Option String) :=
  if lineage.isInterface then .ok none
  else
    match lineage.constructorPlan with
    | .error failure => .error failure
    | .ok .implicit => .ok none
    | .ok (.delegating constructor) =>
        let className := settings.className lineage.self.name.simpleName
        .ok (some (constructor.stub settings.indent className))

def implementation (settings : StubSettings) (lineage : Lineage) :
    Except Failure CompilationUnit := do
  lineage.checkEligible
  let constructor ← lineage.constructorStub settings
  pure
    { packageName := lineage.self.name.packageName
      className := settings.className lineage.self.name.simpleName
      relation := if lineage.isInterface then .implementing else .extending
      target := lineage.self.name.sourceName
      constructor
      methods := lineage.abstractMembers.map (Method.stub settings.indent) }

end Lineage

end Stubwright
