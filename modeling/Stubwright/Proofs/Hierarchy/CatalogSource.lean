import Stubwright.Proofs.Hierarchy.Supertypes

namespace Stubwright

def Method.bare (name : String) (modifiers : List Modifier) : Method :=
  { name
    declaringType := ""
    returnType := .void
    parameters := []
    exceptions := []
    modifiers := .ofList modifiers }

def Declaration.bare (name : String) (kind : TypeKind) (superclass : Option String)
    (interfaces : List String) (methods : List Method) : Declaration :=
  { name, kind, modifiers := .empty, superclass, interfaces, constructors := [], methods }

namespace Source

variable {source : Source} {name : String} {catalog : Catalog} {declaration : Declaration}

theorem lookup_ofCatalog (catalog : Catalog) (name : String) :
    (ofCatalog catalog).lookup name = .ok (catalog.find? name) := rfl

theorem found_ofCatalog :
    (ofCatalog catalog).lookup name = .ok (some declaration) ↔
      catalog.find? name = some declaration := by
  rw [lookup_ofCatalog, Except.ok.injEq]

theorem unknown_ofCatalog (unknown : ¬ (ofCatalog catalog).Knows name) :
    (ofCatalog catalog).lookup name = .ok none := by
  cases answer : catalog.find? name with
  | none => rw [lookup_ofCatalog, answer]
  | some declaration => exact absurd ⟨declaration, found_ofCatalog.mpr answer⟩ unknown

theorem bounded_empty : empty.Bounded :=
  ⟨[], Nat.le_refl 0, fun _ ⟨_, found⟩ => by simp [empty] at found⟩

theorem bounded_ofCatalog (catalog : Catalog) : (ofCatalog catalog).Bounded := by
  refine ⟨catalog.declarations.map Declaration.name, by simp [ofCatalog, Catalog.size], ?_⟩
  rintro name ⟨declaration, found⟩
  rw [found_ofCatalog] at found
  exact List.mem_map.mpr ⟨declaration, Catalog.mem_of_find? found, Catalog.name_of_find? found⟩

theorem knows_of_orElse {first second : Source} (knows : (first.orElse second).Knows name) :
    first.Knows name ∨ second.Knows name := by
  obtain ⟨declaration, found⟩ := knows
  unfold orElse at found
  cases answer : first.lookup name with
  | error failure => simp [answer] at found
  | ok answered =>
      cases answered with
      | none => exact .inr ⟨declaration, by simpa [answer] using found⟩
      | some earlier => exact .inl ⟨earlier, answer⟩

theorem Bounded.orElse {first second : Source} (left : first.Bounded) (right : second.Bounded) :
    (first.orElse second).Bounded := by
  obtain ⟨names, size, covers⟩ := left
  obtain ⟨others, otherSize, otherCovers⟩ := right
  refine ⟨names ++ others, ?_, ?_⟩
  · simpa [Source.orElse] using Nat.add_le_add size otherSize
  · intro name knows
    rcases knows_of_orElse knows with early | late
    · exact List.mem_append_left others (covers name early)
    · exact List.mem_append_right names (otherCovers name late)

theorem bounded_chain {sources : List Source} (parts : ∀ source ∈ sources, source.Bounded) :
    (chain sources).Bounded := by
  induction sources with
  | nil => exact bounded_empty
  | cons first rest ih =>
      exact (parts first (by simp)).orElse (ih fun source member => parts source (by simp [member]))

theorem bounded_ofCatalogs (catalogs : List Catalog) : (ofCatalogs catalogs).Bounded := by
  refine bounded_chain fun source member => ?_
  obtain ⟨catalog, -, rfl⟩ := List.mem_map.mp member
  exact bounded_ofCatalog catalog

/-- A new type changes nothing about those that a catalog has, unless it is the root class. -/
theorem HasLineage.insert {lineage : Lineage} (absent : catalog.find? declaration.name = none)
    (notRoot : declaration.name ≠ rootClass) (has : (ofCatalog catalog).HasLineage name lineage) :
    (ofCatalog (catalog.insert declaration)).HasLineage name lineage := by
  refine has.transfer ?_ ?_
  · intro type known found
    rw [found_ofCatalog] at found ⊢
    have other : type ≠ declaration.name := by
      rintro rfl
      simp [absent] at found
    rw [Catalog.find?_insert absent, if_neg other, found]
  · intro unknown
    rw [lookup_ofCatalog] at unknown ⊢
    rw [Catalog.find?_insert absent, if_neg notRoot.symm, unknown]

end Source

end Stubwright
