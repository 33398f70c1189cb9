import Stubwright.CommandLine.Run
import Stubwright.Proofs.Catalog.Merging
import Stubwright.Proofs.Hierarchy.Relevance

namespace Stubwright

namespace Source

variable {left right : Source}

/-- Every name has the same answer in both sources, be it a declaration, none, or a failure. -/
def Alike (left right : Source) : Prop :=
  ∀ name, left.lookup name = right.lookup name

theorem Alike.describe (alike : left.Alike right) (bounded : left.Bounded)
    (boundedToo : right.Bounded) (written : String) :
    left.describe written = right.describe written :=
  describe_congr bounded boundedToo fun asked _ => alike asked

/-- A chain of catalogs answers with the first declaration that one of them has. -/
theorem lookup_ofCatalogs (catalogs : List Catalog) (name : String) :
    (ofCatalogs catalogs).lookup name = .ok (catalogs.findSome? (·.find? name)) := by
  induction catalogs with
  | nil => rfl
  | cons catalog others ih =>
      rw [ofCatalogs, List.map_cons, lookup_chain_cons, lookup_ofCatalog, List.findSome?_cons]
      cases catalog.find? name with
      | none => exact ih
      | some declaration => rfl

theorem alike_mergeAll (catalogs : List Catalog) :
    (ofCatalog (Catalog.mergeAll catalogs)).Alike (ofCatalogs catalogs) := by
  intro name
  rw [lookup_ofCatalog, Catalog.find?_mergeAll, lookup_ofCatalogs]

/-- The catalogs of a run are read one after the other and merged in that order. -/
theorem loadCatalogs_eq (world : Disk.World) (paths : List String) (catalog : Catalog) :
    GenerateArguments.loadCatalogs world catalog paths =
      (collect (Catalog.load world) paths).map (·.foldl Catalog.merge catalog) := by
  induction paths generalizing catalog with
  | nil => rfl
  | cons path others ih =>
      rw [GenerateArguments.loadCatalogs, collect]
      cases Catalog.load world path with
      | error failure => rfl
      | ok more =>
          cases rest : collect (Catalog.load world) others with
          | error failure => simp only [ih, rest, Except.map]
          | ok catalogs => simp only [ih, rest, Except.map, List.foldl_cons]

/-- Declarations, merged catalogs and chained catalogs: a name is answered by the first declaration
of it, wherever that stands. -/
theorem merging_eq_chaining (catalogs : List Catalog) :
    (∀ declarations name, (Catalog.ofDeclarations declarations).find? name =
      (declarations.find? (·.name == name)).map Declaration.normalized) ∧
    (∀ first second : Catalog, ∀ name,
      (first.merge second).find? name = (first.find? name).or (second.find? name) ∧
      ∀ order : List Declaration, order.Perm second.declarations →
        (order.foldl Catalog.insert first).find? name = (first.merge second).find? name) ∧
    (∀ first second third : Catalog, ∀ name, ((first.merge second).merge third).find? name =
      (first.merge (second.merge third)).find? name) ∧
    (∀ (catalog : Catalog) name, (Catalog.empty.merge catalog).find? name = catalog.find? name ∧
      (catalog.merge .empty).find? name = catalog.find? name) ∧
    (∀ first second : Catalog, first.Apart second → ∀ name,
      (first.merge second).find? name = (second.merge first).find? name) ∧
    (∀ world paths, GenerateArguments.loadCatalogs world .empty paths =
      (collect (Catalog.load world) paths).map Catalog.mergeAll) ∧
    (∀ name, (ofCatalog (Catalog.mergeAll catalogs)).lookup name =
      (ofCatalogs catalogs).lookup name) ∧
    ∀ written, (ofCatalog (Catalog.mergeAll catalogs)).describe written =
      (ofCatalogs catalogs).describe written := by
  refine ⟨Catalog.find?_ofDeclarations, fun first second name => ⟨?_, fun order arranged => ?_⟩,
    Catalog.find?_merge_assoc, fun catalog name => ⟨?_, ?_⟩, fun first second apart name => ?_,
    fun world paths => ?_, alike_mergeAll catalogs, fun written => ?_⟩
  · exact Catalog.find?_merge first second name
  · rw [Catalog.find?_foldl_of_perm arranged, Catalog.find?_merge]
  · exact Catalog.find?_empty_merge catalog name
  · exact Catalog.find?_merge_empty catalog name
  · exact apart.find?_merge_comm name
  · exact loadCatalogs_eq world paths .empty
  · exact (alike_mergeAll catalogs).describe (bounded_ofCatalog _) (bounded_ofCatalogs catalogs)
      written

/-- A shape as an interface and again as a class, and a circle that implements it. -/
def shapes : List Catalog :=
  [.ofDeclarations [.bare "kit.Shape" .interfaceType none [] [.bare "draw" [.abstractMember]],
      .bare "kit.Shape" .classType none [] []],
    .ofDeclarations [.bare "kit.Shape" .enumType none [] [],
      .bare "kit.Circle" .classType none ["kit.Shape"] []]]

def circleAlone : Catalog :=
  .ofDeclarations [.bare "kit.Circle" .classType none ["kit.Shape"] []]

def shapeAlone : Catalog :=
  .ofDeclarations [.bare "kit.Shape" .enumType none [] []]

theorem circleAlone_apart : circleAlone.Apart shapeAlone := by
  intro name
  rw [circleAlone, shapeAlone, Catalog.find?_ofDeclarations, Catalog.find?_ofDeclarations]
  by_cases circle : name = "kit.Circle"
  · subst circle
    exact .inr rfl
  · left
    rw [List.find?_cons_of_neg (by simpa [Declaration.bare] using Ne.symm circle)]
    rfl

/-- The first of the three shapes is the one that the chain and the merged catalogs describe, and the
circle goes in before or after the others. -/
theorem merging_eq_chaining_shapes :
    (ofCatalog (Catalog.mergeAll shapes)).describe "kit.Circle" =
        (ofCatalogs shapes).describe "kit.Circle" ∧
      ((Catalog.mergeAll shapes).find? "kit.Shape").map Declaration.kind = some .interfaceType ∧
      (∀ name, (circleAlone.merge shapeAlone).find? name =
        (shapeAlone.merge circleAlone).find? name) ∧
      ∀ name, (circleAlone.declarations.reverse.foldl Catalog.insert shapeAlone).find? name =
        (shapeAlone.merge circleAlone).find? name := by
  obtain ⟨-, merged, -, -, commuting, -, -, described⟩ := merging_eq_chaining shapes
  refine ⟨described "kit.Circle", rfl, ?_, fun name => ?_⟩
  · exact commuting circleAlone shapeAlone circleAlone_apart
  · exact (merged shapeAlone circleAlone name).2 _ (List.reverse_perm _)

end Source

end Stubwright
