import Stubwright.Proofs.Hierarchy.Assembly
import Stubwright.Proofs.Signature.FirstOccurrence

namespace Stubwright

def Declaration.publicMembers (declaration : Declaration) : List Method :=
  (declaration.methods.filter Method.isMember).filter Method.isPublic

namespace Source

variable {source : Source} {name parent : String} {lineage : Lineage} {declaration : Declaration}
  {method : Method}

/-- The public methods of a type with those that it inherits; none if it cannot be assembled. -/
def surface (source : Source) (name : String) : List Method :=
  match source.assemble name with
  | .ok lineage => lineage.self.publicMethods
  | .error _ => []

theorem surface_of_hasLineage (bounded : source.Bounded) (has : source.HasLineage name lineage) :
    source.surface name = lineage.self.publicMethods := by
  rw [surface, (assemble_eq_ok bounded).mpr has]

theorem surface_unknown (unknown : source.lookup name = .ok none) : source.surface name = [] := by
  simp [surface, assemble, assembleBelow, unknown]

theorem hasLineage_of_mem_surface (member : method ∈ source.surface name) :
    ∃ lineage, source.HasLineage name lineage := by
  unfold surface at member
  split at member
  · rename_i lineage assembled
    exact ⟨lineage, hasLineage_of_assembleBelow assembled⟩
  · contradiction

def inherited (source : Source) (declaration : Declaration) : List Method :=
  declaration.superclass.toList.flatMap source.surface ++
    (declaration.interfaces.flatMap source.surface).filter (!·.isStatic)

def candidates (source : Source) (declaration : Declaration) : List Method :=
  declaration.publicMembers ++ source.inherited declaration

def handedDown (handed : String → Option Lineage) (parent : String) : List Method :=
  ((handed parent).map (·.self.publicMethods)).getD []

theorem flatten_handed (handed : String → Option Lineage) (parents : List String) :
    ((parents.filterMap handed).map (·.self.publicMethods)).flatten =
      parents.flatMap (handedDown handed) := by
  induction parents with
  | nil => rfl
  | cons first rest ih =>
      cases answer : handed first <;> simp [answer, ih, handedDown]

theorem surface_declared (bounded : source.Bounded) (has : source.HasLineage name lineage)
    (found : source.lookup name = .ok (some declaration)) :
    source.surface name = firstBySignature .empty (source.candidates declaration) := by
  obtain ⟨handed, composed, known, missing⟩ := has.handed found
  have surfaces : ∀ parent ∈ declaration.supertypes,
      handedDown handed parent = source.surface parent := by
    intro parent listed
    cases answer : handed parent with
    | none =>
        rw [surface_unknown (missing parent listed answer).2, handedDown, answer]
        rfl
    | some above =>
        have hasAbove := (known parent listed above).mp answer
        rw [surface_of_hasLineage bounded hasAbove, handedDown, answer]
        rfl
  have superclass :
      ((declaration.superclass.bind handed).map (·.self.publicMethods)).getD [] =
        declaration.superclass.toList.flatMap source.surface := by
    cases extended : declaration.superclass with
    | none => rfl
    | some parent =>
        simpa [handedDown] using
          surfaces parent (Declaration.mem_supertypes_of_superclass extended)
  have interfaces :
      ((declaration.interfaces.filterMap handed).map (·.self.publicMethods)).flatten =
        declaration.interfaces.flatMap source.surface := by
    rw [flatten_handed]
    exact List.flatMap_congr fun parent listed =>
      surfaces parent (Declaration.mem_supertypes_of_interface listed)
  rw [surface_of_hasLineage bounded has, composed, Declaration.lineage, publicSurface, superclass,
    interfaces, List.append_assoc]
  rfl

theorem mem_inherited :
    method ∈ source.inherited declaration ↔
      (∃ parent, declaration.superclass = some parent ∧ method ∈ source.surface parent) ∨
        (∃ parent ∈ declaration.interfaces, method ∈ source.surface parent) ∧
          method.isStatic = false := by
  simp only [inherited, List.mem_append, List.mem_flatMap, List.mem_filter, Option.mem_toList,
    Bool.not_eq_true']

theorem mem_candidates :
    method ∈ source.candidates declaration ↔
      method ∈ declaration.publicMembers ∨
        (∃ parent, declaration.superclass = some parent ∧ method ∈ source.surface parent) ∨
        (∃ parent ∈ declaration.interfaces, method ∈ source.surface parent) ∧
          method.isStatic = false := by
  rw [candidates, List.mem_append, mem_inherited]

/-- A method of a surface is declared by the type or is in the surface of a supertype. -/
theorem mem_surface_cases (bounded : source.Bounded) (has : source.HasLineage name lineage)
    (found : source.lookup name = .ok (some declaration)) (member : method ∈ source.surface name) :
    method ∈ declaration.publicMembers ∨
      ∃ parent ∈ declaration.supertypes, method ∈ source.surface parent := by
  rw [surface_declared bounded has found] at member
  rcases mem_candidates.mp (mem_of_mem_firstBySignature member) with
    own | ⟨parent, extended, above⟩ | ⟨⟨parent, listed, above⟩, _⟩
  · exact .inl own
  · exact .inr ⟨parent, Declaration.mem_supertypes_of_superclass extended, above⟩
  · exact .inr ⟨parent, Declaration.mem_supertypes_of_interface listed, above⟩

theorem surface_distinct (bounded : source.Bounded) (has : source.HasLineage name lineage) :
    (source.surface name).Pairwise fun earlier later =>
      earlier.signature.same later.signature = false := by
  obtain ⟨declaration, found⟩ := has.knows
  rw [surface_declared bounded has found]
  exact pairwise_firstBySignature _

/-- Every method of a surface is declared by the type itself or by one above it. -/
theorem declared_of_mem_surface (bounded : source.Bounded) (member : method ∈ source.surface name) :
    ∃ type declaration, source.Reaches name type ∧
      source.lookup type = .ok (some declaration) ∧ method ∈ declaration.publicMembers := by
  obtain ⟨lineage, has⟩ := hasLineage_of_mem_surface member
  induction has using HasLineage.climb with
  | @step name lineage declaration has found above =>
      rcases mem_surface_cases bounded has found member with own | ⟨parent, listed, inherited⟩
      · exact ⟨name, declaration, .refl, found, own⟩
      · obtain ⟨lineage, hasAbove⟩ := hasLineage_of_mem_surface inherited
        obtain ⟨type, declared, reached, foundAbove, own⟩ :=
          above parent listed lineage hasAbove inherited
        exact ⟨type, declared, .head ⟨declaration, found, listed⟩ reached, foundAbove, own⟩

/-- Static methods come down along superclasses only, so a class of the chain declares each of them.
-/
theorem level_of_static (bounded : source.Bounded) (has : source.HasLineage name lineage)
    (member : method ∈ source.surface name) (static : method.isStatic = true) :
    ∃ level ∈ lineage.classChain, method ∈ level.methods ∧
      ∃ type declaration, source.lookup type = .ok (some declaration) ∧
        method ∈ declaration.publicMembers ∧ level.name = ⟨declaration.name⟩ := by
  induction has using HasLineage.climb with
  | @step name lineage declaration has found above =>
      rw [surface_declared bounded has found] at member
      rcases mem_candidates.mp (mem_of_mem_firstBySignature member) with
        own | ⟨parent, extended, inherited⟩ | ⟨_, instance_⟩
      · refine ⟨lineage.self, List.mem_cons_self, ?_, name, declaration, found, own,
          has.self_name found⟩
        rw [has.self_methods found]
        exact (List.mem_filter.mp own).1
      · obtain ⟨lineage, hasAbove⟩ := hasLineage_of_mem_surface inherited
        have listed := Declaration.mem_supertypes_of_superclass extended
        obtain ⟨level, chained, declared⟩ := above parent listed lineage hasAbove inherited
        rw [← has.ancestors_of_superclass found extended hasAbove] at chained
        exact ⟨level, List.mem_cons_of_mem _ chained, declared⟩
      · rw [static] at instance_
        contradiction

end Source

theorem Catalog.declaringType_of_found {catalog : Catalog} {name : String}
    {declaration : Declaration} {method : Method} (found : catalog.find? name = some declaration)
    (member : method ∈ declaration.publicMembers) : method.declaringType = name := by
  have declared := (List.mem_filter.mp (List.mem_filter.mp member).1).1
  rw [Declaration.declaringType_of_mem (normalized_of_find? found) declared, name_of_find? found]

end Stubwright
