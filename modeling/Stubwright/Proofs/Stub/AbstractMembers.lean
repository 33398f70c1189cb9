import Stubwright.Proofs.Surface.Candidates
import Stubwright.Stub.Synthesis

namespace Stubwright

namespace Lineage

variable {lineage : Lineage} {method : Method}

theorem mem_abstractMembers :
    method ∈ lineage.abstractMembers ↔
      lineage.memberWalk.find? (·.signature.same method.signature) = some method ∧
        method.isAbstract = true := by
  rw [abstractMembers, List.mem_filter, mem_firstBySignature]

/-- Nothing is left to implement exactly if the first method of each signature is concrete. -/
theorem abstractMembers_eq_nil :
    lineage.abstractMembers = [] ↔
      ∀ method, lineage.memberWalk.find? (·.signature.same method.signature) = some method →
        method.isAbstract = false := by
  simp only [List.eq_nil_iff_forall_not_mem, mem_abstractMembers, not_and, Bool.not_eq_true]

/-- For a class the levels of its chain follow the public surface, an interface has no more. -/
theorem memberWalk_eq (lineage : Lineage) :
    lineage.memberWalk = lineage.self.publicMethods ++
      if lineage.isInterface then [] else lineage.classChain.flatMap (·.methods) := rfl

/-- The walk is read once, in its order, and a method on it is to be implemented exactly if it is
abstract and stands at the first place of its signature. So no concrete method in front of an
abstract one is overlooked, and methods with other parameters never stand in the way. -/
theorem abstractMembers_eq_firstAbstract (lineage : Lineage) :
    (lineage.memberWalk = lineage.self.publicMethods ++
      if lineage.self.kind = .interfaceType ∨ lineage.self.kind = .annotationType then []
      else (lineage.self :: lineage.ancestors).flatMap Level.methods) ∧
    (∃ places : List (Fin lineage.memberWalk.length), places.Pairwise (· < ·) ∧
      lineage.abstractMembers = places.map lineage.memberWalk.get ∧
      ∀ place, place ∈ places ↔
        (lineage.memberWalk.get place).isAbstract = true ∧ FirstAt lineage.memberWalk place) ∧
    (lineage.abstractMembers.Pairwise fun earlier later => ¬ earlier.SharesSignature later) ∧
    ∀ place : Fin lineage.memberWalk.length, ∃ first ≤ place,
      FirstAt lineage.memberWalk first ∧
        (lineage.memberWalk.get first).SharesSignature (lineage.memberWalk.get place) ∧
        ((∃ stubbed ∈ lineage.abstractMembers,
            stubbed.SharesSignature (lineage.memberWalk.get place)) ↔
          (lineage.memberWalk.get first).isAbstract = true) := by
  have listed : lineage.abstractMembers =
      ((keptPlaces .empty lineage.memberWalk).filter fun place =>
        (lineage.memberWalk.get place).isAbstract).map lineage.memberWalk.get := by
    rw [abstractMembers, firstBySignature_eq_keptPlaces SignatureSet.rising_empty, List.filter_map]
    rfl
  refine ⟨?_, ⟨_, (pairwise_keptPlaces .empty _).filter _, listed, ?_⟩, ?_, ?_⟩
  · rw [memberWalk, isInterface]
    cases lineage.self.kind <;> rfl
  · intro place
    rw [List.mem_filter, mem_keptPlaces_empty, and_comm]
  · refine ((pairwise_firstBySignature lineage.memberWalk).sublist List.filter_sublist).imp ?_
    intro earlier later different shared
    rw [Method.sharesSignature_iff.mp shared] at different
    cases different
  · intro place
    obtain ⟨first, notAfter, leads, shared⟩ := exists_firstAt lineage.memberWalk place
    refine ⟨first, notAfter, leads, shared, ?_⟩
    simp only [listed, List.mem_map, List.mem_filter, mem_keptPlaces_empty]
    constructor
    · rintro ⟨_, ⟨other, ⟨otherLeads, abstracted⟩, rfl⟩, alike⟩
      have same : other = first := otherLeads.unique leads
        ⟨alike.1.trans shared.1.symm, alike.2.trans shared.2.symm⟩
      rwa [same] at abstracted
    · intro abstracted
      exact ⟨_, ⟨first, ⟨leads, abstracted⟩, rfl⟩, shared⟩

theorem relation_of_implementation {settings : StubSettings} {unit : CompilationUnit}
    (accepted : lineage.implementation settings = .ok unit) :
    unit.relation = if lineage.isInterface then .implementing else .extending := by
  obtain ⟨_, _, accepted⟩ := ok_of_bind accepted
  obtain ⟨constructor, _, accepted⟩ := ok_of_bind accepted
  cases accepted
  rfl

end Lineage

namespace Source

variable {source : Source} {name : String} {lineage : Lineage} {level : Level} {method : Method}

theorem isPublic_of_mem_surface (bounded : source.Bounded) (member : method ∈ source.surface name) :
    method.isPublic = true := by
  obtain ⟨_, _, _, _, declared⟩ := declared_of_mem_surface bounded member
  exact (List.mem_filter.mp declared).2

theorem isMember_of_mem_surface (bounded : source.Bounded) (member : method ∈ source.surface name) :
    method.isMember = true := by
  obtain ⟨_, _, _, _, declared⟩ := declared_of_mem_surface bounded member
  exact (List.mem_filter.mp (List.mem_filter.mp declared).1).2

theorem isMember_of_mem_level (has : source.HasLineage name lineage)
    (chained : level ∈ lineage.classChain) (member : method ∈ level.methods) :
    method.isMember = true := by
  induction has using HasLineage.climb with
  | @step name lineage declaration has found above =>
      rcases List.mem_cons.mp chained with rfl | higher
      · rw [has.self_methods found] at member
        exact (List.mem_filter.mp member).2
      · obtain ⟨parent, lineage, extended, hasAbove, higher⟩ := has.mem_ancestors found higher
        have listed := Declaration.mem_supertypes_of_superclass extended
        exact above parent listed lineage hasAbove higher

theorem isMember_of_mem_abstractMembers (bounded : source.Bounded)
    (has : source.HasLineage name lineage) (member : method ∈ lineage.abstractMembers) :
    method.isMember = true := by
  have walked := List.mem_of_find?_eq_some (Lineage.mem_abstractMembers.mp member).1
  rw [Lineage.memberWalk_eq, ← surface_of_hasLineage bounded has] at walked
  rcases List.mem_append.mp walked with exposed | deeper
  · exact isMember_of_mem_surface bounded exposed
  · split at deeper
    · contradiction
    · obtain ⟨level, chained, declared⟩ := List.mem_flatMap.mp deeper
      exact isMember_of_mem_level has chained declared

end Source

namespace Method

variable {owner : String} {method : Method}

def implementedIn (owner : String) (method : Method) : Method :=
  { method with
    declaringType := owner
    modifiers := method.stubModifiers }

/-- A stub keeps the modifiers that source code can write, but for the abstract one. -/
theorem has_stubModifiers (method : Method) (modifier : Modifier) :
    method.stubModifiers.has modifier =
      (method.modifiers.has modifier && decide (modifier ∈ Modifier.inSource) &&
        !decide (modifier = .abstractMember)) := by
  simp [stubModifiers, Modifiers.onMethods]

@[simp]
theorem isAbstract_implementedIn : (method.implementedIn owner).isAbstract = false := by
  simp [isAbstract, implementedIn, has_stubModifiers]

@[simp]
theorem isPublic_implementedIn : (method.implementedIn owner).isPublic = method.isPublic := by
  simp [isPublic, implementedIn, has_stubModifiers, Modifier.inSource]

theorem isMember_implementedIn (member : method.isMember = true) :
    (method.implementedIn owner).isMember = true := by
  have named := (Bool.and_eq_true_iff.mp member).1
  have shown : (method.implementedIn owner).modifiers.isHidden = false := by
    simp [implementedIn, Modifiers.isHidden, has_stubModifiers, Modifier.inSource]
  rw [isMember, shown, Bool.not_false, Bool.and_true]
  exact named

theorem same_implementedIn :
    (method.implementedIn owner).signature.same method.signature = true :=
  Signature.same_iff.mpr ⟨rfl, rfl⟩

end Method

end Stubwright
