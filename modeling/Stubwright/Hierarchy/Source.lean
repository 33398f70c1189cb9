import Stubwright.Catalog.Basic
import Stubwright.Failure

namespace Stubwright

structure Source where
  lookup : String → Except Failure (Option Declaration)
  /-- No source knows more names than this. -/
  extent : Nat

namespace Source

def empty : Source := ⟨fun _ => .ok none, 0⟩

def ofCatalog (catalog : Catalog) : Source :=
  ⟨fun name => .ok (catalog.find? name), catalog.size⟩

def orElse (first second : Source) : Source :=
  { lookup := fun name =>
      match first.lookup name with
      | .ok none => second.lookup name
      | answer => answer
    extent := first.extent + second.extent }

def chain (sources : List Source) : Source :=
  sources.foldr orElse empty

def ofCatalogs (catalogs : List Catalog) : Source :=
  chain (catalogs.map ofCatalog)

def Knows (source : Source) (name : String) : Prop :=
  ∃ declaration, source.lookup name = .ok (some declaration)

theorem lookup_chain_cons (first : Source) (others : List Source) (name : String) :
    (chain (first :: others)).lookup name =
      match first.lookup name with
      | .ok none => (chain others).lookup name
      | answer => answer := rfl

end Source

end Stubwright
