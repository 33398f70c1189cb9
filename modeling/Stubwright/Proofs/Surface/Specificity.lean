import Stubwright.Proofs.Hierarchy.CatalogSource
import Stubwright.Proofs.Hierarchy.Memory
import Stubwright.Proofs.Surface.Candidates

/-!
Overriding along several paths. A type may take a method over from one supertype although a type
above another one overrides it, for the order of the supertypes alone decides between them. That is
the only way in which an overridden method stays on a surface.
-/
namespace Stubwright

namespace Source

variable {catalog : Catalog} {source : Source} {name : String} {lineage : Lineage}
  {method : Method}

/-- A type below the one that declares a method declares a public method of the same signature, and
not a static one. -/
def Overrides (source : Source) (type : String) (method : Method) : Prop :=
  source.Inherits type method.declaringType ∧
    ∃ declaration, source.lookup type = .ok (some declaration) ∧
      ∃ own ∈ declaration.publicMembers,
        own.isStatic = false ∧ own.signature.same method.signature = true

/-- No type at or above a described one overrides an instance method of its surface. -/
def MostSpecific (source : Source) (lineage : Lineage) : Prop :=
  ∀ method ∈ lineage.self.publicMethods, method.isStatic = false →
    ∀ type, source.Reaches lineage.self.name.binaryName type → ¬ source.Overrides type method

/-- A type takes a method over from one supertype, and a type at or above another one overrides it.
-/
def Clash (source : Source) (name : String) (method : Method) : Prop :=
  method ∈ source.surface name ∧
    ∃ giver other, source.Extends name giver ∧ source.Extends name other ∧ other ≠ giver ∧
      method ∈ source.surface giver ∧
        ∃ type, source.Reaches other type ∧ source.Overrides type method

/-- A type does not override what is on its own surface: its own methods come first there. -/
theorem not_overrides_surface (has : (ofCatalog catalog).HasLineage name lineage)
    (member : method ∈ (ofCatalog catalog).surface name) :
    ¬ (ofCatalog catalog).Overrides name method := by
  rintro ⟨inherited, declaration, found, own, declared, -, equal⟩
  rw [surface_declared (bounded_ofCatalog catalog) has found, mem_firstBySignature, candidates,
    List.find?_append] at member
  have first : (declaration.publicMembers.find? (·.signature.same method.signature)).isSome :=
    List.find?_isSome.mpr ⟨own, declared, equal⟩
  obtain ⟨kept, search⟩ := Option.isSome_iff_exists.mp first
  rw [search, Option.some_or, Option.some.injEq] at member
  subst kept
  have named := Catalog.declaringType_of_found (found_ofCatalog.mp found)
    (List.mem_of_find?_eq_some search)
  rw [named] at inherited
  exact has.not_inherits_self inherited

/-- Going up from a type whose surface holds an overridden method, the supertype that hands the method
down is the one that leads to the overriding type, until they differ. -/
theorem exists_clash (has : (ofCatalog catalog).HasLineage name lineage)
    (member : method ∈ (ofCatalog catalog).surface name) {type : String}
    (reached : (ofCatalog catalog).Reaches name type)
    (overrides : (ofCatalog catalog).Overrides type method) :
    ∃ below, (ofCatalog catalog).Reaches name below ∧ (ofCatalog catalog).Clash below method := by
  induction has using HasLineage.climb with
  | @step name lineage declaration has found above =>
      rcases Relation.ReflTransGen.cases_head reached with rfl | ⟨other, extended, onward⟩
      · exact absurd overrides (not_overrides_surface has member)
      · rcases mem_surface_cases (bounded_ofCatalog catalog) has found member with
          own | ⟨giver, listed, handed⟩
        · have named := Catalog.declaringType_of_found (found_ofCatalog.mp found) own
          have back := overrides.1
          rw [named] at back
          exact absurd (Relation.TransGen.trans_right reached back) has.not_inherits_self
        · have gives : (ofCatalog catalog).Extends name giver := ⟨declaration, found, listed⟩
          by_cases same : other = giver
          · subst other
            obtain ⟨lineage, hasAbove⟩ := hasLineage_of_mem_surface handed
            obtain ⟨below, up, clash⟩ := above giver listed lineage hasAbove handed onward
            exact ⟨below, .head gives up, clash⟩
          · exact ⟨name, .refl, member, giver, other, gives, extended, same, handed, type, onward,
              overrides⟩

/-- The surface of a described type is the most specific one exactly if no type at or above it takes
over a method of the surface that is overridden on another of its paths. -/
theorem mostSpecific_iff_no_clash (catalog : Catalog) {written : String} {lineage : Lineage}
    (described : (ofCatalog catalog).describe written = .ok lineage) :
    (ofCatalog catalog).MostSpecific lineage ↔
      ∀ method ∈ lineage.self.publicMethods, method.isStatic = false →
        ∀ below, (ofCatalog catalog).Reaches lineage.self.name.binaryName below →
          ¬ (ofCatalog catalog).Clash below method := by
  have bounded := bounded_ofCatalog catalog
  rcases hasLineage_of_describe bounded described with bare | ⟨name, has⟩
  · simp [MostSpecific, bare]
  · obtain ⟨declaration, found⟩ := has.knows
    have named : lineage.self.name.binaryName = name := by
      rw [has.self_name found, Catalog.name_of_find? (found_ofCatalog.mp found)]
    rw [MostSpecific, named]
    constructor
    · rintro specific method member instance_ below reached
        ⟨_, giver, other, -, extended, -, -, type, onward, overrides⟩
      exact specific method member instance_ type (reached.trans (.head extended onward)) overrides
    · intro apart method member instance_ type reached overrides
      rw [← surface_of_hasLineage bounded has] at member
      obtain ⟨below, up, clash⟩ := exists_clash has member reached overrides
      rw [surface_of_hasLineage bounded has] at member
      exact apart method member instance_ below up clash

/-- A class that lists an interface before another one that makes its method abstract again. -/
def reabstracted : Catalog :=
  .ofDeclarations
    [.bare "Base" .interfaceType none [] [.bare "run" []],
      .bare "Derived" .interfaceType none ["Base"] [.bare "run" [.abstractMember]],
      .bare "Target" .classType none ["Base", "Derived"] []]

theorem overrides_reabstracted :
    (ofCatalog reabstracted).Overrides "Derived"
      { Method.bare "run" [.publicAccess] with declaringType := "Base" } := by
  refine ⟨.single ⟨_, rfl, by decide⟩, _, rfl, _, List.mem_singleton_self _, ?_⟩
  decide

theorem not_mostSpecific_reabstracted :
    ∃ lineage, (ofCatalog reabstracted).describe "Target" = .ok lineage ∧
      ¬ (ofCatalog reabstracted).MostSpecific lineage := by
  refine ⟨_, rfl, fun specific => ?_⟩
  exact specific _ (List.mem_singleton_self _) (by decide) "Derived"
    (.single ⟨_, rfl, by decide⟩) overrides_reabstracted

/-- The default body of `Base` stays on the surface of `Target`, which `Derived` has overridden. -/
theorem describe_not_mostSpecific :
    ¬ ∀ (catalog : Catalog) (written : String) (lineage : Lineage),
      (ofCatalog catalog).describe written = .ok lineage →
        (ofCatalog catalog).MostSpecific lineage := by
  intro always
  obtain ⟨lineage, described, overridden⟩ := not_mostSpecific_reabstracted
  exact overridden (always reabstracted "Target" lineage described)

theorem clash_reabstracted :
    ∃ lineage, (ofCatalog reabstracted).describe "Target" = .ok lineage ∧
      ∃ method ∈ lineage.self.publicMethods, method.isStatic = false ∧
        ∃ below, (ofCatalog reabstracted).Reaches lineage.self.name.binaryName below ∧
          (ofCatalog reabstracted).Clash below method := by
  obtain ⟨lineage, described, overridden⟩ := not_mostSpecific_reabstracted
  have clash := (mostSpecific_iff_no_clash reabstracted described).not.mp overridden
  push Not at clash
  exact ⟨lineage, described, clash⟩

end Source

end Stubwright
