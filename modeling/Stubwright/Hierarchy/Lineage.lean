import Stubwright.Declaration
import Stubwright.TypeName

/-!
A type with everything that its supertypes hand down to it. The superclasses stand in line, nearest
first, each with its own members; what the interfaces contribute is in the public methods.
-/
namespace Stubwright

structure Level where
  name : TypeName
  kind : TypeKind
  modifiers : Modifiers
  constructors : List Constructor
  methods : List Method
  interfaces : List String
  /-- Every public method that the type has or inherits, the most specific first. -/
  publicMethods : List Method
deriving DecidableEq, Repr

/-- A type followed by its superclasses up to the root. -/
structure Lineage where
  self : Level
  ancestors : List Level
deriving DecidableEq, Repr

namespace Lineage

def classChain (lineage : Lineage) : List Level :=
  lineage.self :: lineage.ancestors

def superclass? (lineage : Lineage) : Option Lineage :=
  match lineage.ancestors with
  | [] => none
  | parent :: others => some ⟨parent, others⟩

def isInterface (lineage : Lineage) : Bool :=
  lineage.self.kind.isInterface

/-- A type without members, as primitive types and arrays are. -/
def memberless (name : String) (kind : TypeKind) : Lineage :=
  { self :=
      { name := ⟨name⟩
        kind
        modifiers := .ofList [.publicAccess, .finalMember]
        constructors := []
        methods := []
        interfaces := []
        publicMethods := [] }
    ancestors := [] }

end Lineage

/-- The public methods of a type: its own, then those of its superclass, then those of its
interfaces but for the static ones, which are not inherited. Of one signature the first stays. -/
def publicSurface (own superclass : List Method) (interfaces : List (List Method)) : List Method :=
  firstBySignature .empty
    (own.filter Method.isPublic ++ superclass ++ interfaces.flatten.filter (!·.isStatic))

def Declaration.lineage (declaration : Declaration) (superclass : Option Lineage)
    (interfaces : List Lineage) : Lineage :=
  let own := declaration.methods.filter Method.isMember
  let inherited := (superclass.map (·.self.publicMethods)).getD []
  { self :=
      { name := ⟨declaration.name⟩
        kind := declaration.kind
        modifiers := declaration.modifiers
        constructors := declaration.constructors
        methods := own
        interfaces := declaration.interfaces
        publicMethods :=
          publicSurface own inherited (interfaces.map (·.self.publicMethods)) }
    ancestors := (superclass.map Lineage.classChain).getD [] }

end Stubwright
