import Stubwright.Hierarchy.Lineage
import Stubwright.Hierarchy.Spelling

/-!
Putting lineages together from a source, one declaration after the other. The names on the way from
the first type to the current one are kept, so that a cycle is noticed where it closes. Nothing is
remembered from one branch of the hierarchy to the next.
-/
namespace Stubwright

def collect (answer : α → Except ε β) : List α → Except ε (List β)
  | [] => .ok []
  | first :: rest =>
      match answer first with
      | .error failure => .error failure
      | .ok value =>
          match collect answer rest with
          | .error failure => .error failure
          | .ok values => .ok (value :: values)

namespace Source

/-- A supertype of `owner`. The root class may be missing; it then ends the class chain. -/
def supertype (source : Source) (assemble : String → Except Failure Lineage)
    (owner name : String) : Except Failure (Option Lineage) :=
  match source.lookup name with
  | .error failure => .error failure
  | .ok (some _) => (assemble name).map some
  | .ok none =>
      if name = rootClass then .ok none
      else .error (.notIntrospectable owner (.unknownSupertype name))

def superclassOf (source : Source) (assemble : String → Except Failure Lineage)
    (declaration : Declaration) : Except Failure (Option Lineage) :=
  match declaration.superclass with
  | none => .ok none
  | some name => source.supertype assemble declaration.name name

/-- The superclass first, then the interfaces in their order. -/
def lineageOf (source : Source) (assemble : String → Except Failure Lineage)
    (declaration : Declaration) : Except Failure Lineage := do
  let superclass ← source.superclassOf assemble declaration
  let interfaces ← collect (source.supertype assemble declaration.name) declaration.interfaces
  pure (declaration.lineage superclass (interfaces.filterMap id))

/-- The lineage of a known type below the types of `path`. `depth` bounds the length of the path. -/
def assembleBelow (source : Source) : (depth : Nat) → (path : List String) → String →
    Except Failure Lineage
  | 0, path, name => .error (.notIntrospectable name (.cyclic path))
  | depth + 1, path, name =>
      if name ∈ path then .error (.notIntrospectable name (.cyclic path))
      else
        match source.lookup name with
        | .error failure => .error failure
        | .ok none => .error (.notIntrospectable name .unknownType)
        | .ok (some declaration) =>
            source.lineageOf (assembleBelow source depth (path ++ [name])) declaration

/-- The lineage of a type by its binary name. A path without repetitions is no longer than the names
that the source knows, so the depth is never used up. -/
def assemble (source : Source) (name : String) : Except Failure Lineage :=
  source.assembleBelow (source.extent + 1) [] name

end Source

end Stubwright
