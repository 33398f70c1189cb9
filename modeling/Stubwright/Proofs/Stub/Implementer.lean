import Stubwright.Proofs.Hierarchy.CatalogSource
import Stubwright.Proofs.Hierarchy.Memory
import Stubwright.Proofs.Stub.AbstractMembers

/-!
Generating for the generated class. Once it is declared below its target, its own walk meets a stub
before every abstract method that the target leaves open, so there is nothing more to implement.
-/
namespace Stubwright

variable {catalog : Catalog} {lineage : Lineage} {unit : CompilationUnit} {method : Method}

def Lineage.implementer (lineage : Lineage) (unit : CompilationUnit) : Declaration :=
  { name := unit.qualifiedName
    kind := .classType
    modifiers := .ofList [.publicAccess]
    superclass :=
      match unit.relation with
      | .extending => some lineage.self.name.binaryName
      | .implementing => none
    interfaces :=
      match unit.relation with
      | .extending => []
      | .implementing => [lineage.self.name.binaryName]
    constructors :=
      match lineage.constructorPlan with
      | .ok (.delegating constructor) =>
          [{ constructor with modifiers := constructor.modifiers.keep .onConstructors }]
      | _ => []
    methods := lineage.abstractMembers.map (Method.implementedIn unit.qualifiedName) }

namespace Lineage

theorem methods_implementer (lineage : Lineage) (unit : CompilationUnit) :
    (lineage.implementer unit).normalized.methods =
      lineage.abstractMembers.map (Method.implementedIn unit.qualifiedName) := by
  rw [Declaration.methods_normalized]
  exact List.map_map.trans (List.map_congr_left fun method _ => rfl)

theorem isAbstract_of_mem_implementer
    (member : method ∈ (lineage.implementer unit).normalized.methods) :
    method.isAbstract = false := by
  rw [methods_implementer] at member
  obtain ⟨implemented, -, rfl⟩ := List.mem_map.mp member
  exact Method.isAbstract_implementedIn

theorem superclass_implementer (lineage : Lineage) (extending : unit.relation = .extending) :
    (lineage.implementer unit).normalized.superclass = some lineage.self.name.binaryName := by
  simp [Declaration.normalized, Declaration.impliedSuperclass, implementer, extending]

theorem rootClass_superclass_implementer (lineage : Lineage)
    (implementing : unit.relation = .implementing) (notRoot : unit.qualifiedName ≠ rootClass) :
    (lineage.implementer unit).normalized.superclass = some rootClass := by
  simp [Declaration.normalized, Declaration.impliedSuperclass, implementer, implementing, notRoot]

theorem interfaces_implementer_of_extending (extending : unit.relation = .extending) :
    (lineage.implementer unit).normalized.interfaces = [] := by
  simp [implementer, extending]

theorem interfaces_implementer_of_implementing (implementing : unit.relation = .implementing) :
    (lineage.implementer unit).normalized.interfaces = [lineage.self.name.binaryName] := by
  simp [implementer, implementing]

theorem mem_supertypes_implementer {parent : String} (notRoot : unit.qualifiedName ≠ rootClass)
    (listed : parent ∈ (lineage.implementer unit).normalized.supertypes) :
    parent = rootClass ∨ parent = lineage.self.name.binaryName := by
  cases relation : unit.relation with
  | extending =>
      rw [Declaration.supertypes, superclass_implementer lineage relation,
        interfaces_implementer_of_extending relation] at listed
      exact .inr (List.mem_singleton.mp listed)
  | implementing =>
      rw [Declaration.supertypes, rootClass_superclass_implementer lineage relation notRoot,
        interfaces_implementer_of_implementing relation] at listed
      simpa using listed

end Lineage

/-- A walk over stubs, over what they inherit and over the levels above. If each abstract method that
comes first without the stubs has one of the same signature, and a public one if it is public, then
none comes first with them. -/
theorem isAbstract_of_walk (stubs handed chain : List Method)
    (concrete : ∀ stub ∈ stubs, stub.isAbstract = false)
    (exposed : ∀ method ∈ handed, method.isPublic = true)
    (covered : ∀ method, method.isAbstract = true →
      (handed ++ chain).find? (·.signature.same method.signature) = some method →
        ∃ stub ∈ stubs, stub.signature.same method.signature = true ∧
          (method.isPublic = true → stub.isPublic = true))
    (first : (stubs.filter Method.isPublic ++ handed ++ (stubs ++ chain)).find?
      (·.signature.same method.signature) = some method) :
    method.isAbstract = false := by
  simp only [List.find?_append, Option.or_eq_some_iff, Option.or_eq_none_iff] at first
  -- The first method is a public stub, is handed down, is another stub, or stands in the chain.
  rcases first with
    (stub | ⟨unstubbed, inherited⟩) | ⟨⟨_, uninherited⟩, stub | ⟨unstubbed, deeper⟩⟩
  · exact concrete method (List.mem_filter.mp (List.mem_of_find?_eq_some stub)).1
  · rw [← Bool.not_eq_true]
    intro unimplemented
    obtain ⟨stub, member, equal, open_⟩ := covered method unimplemented (by
      rw [List.find?_append, inherited, Option.some_or])
    have exported := open_ (exposed method (List.mem_of_find?_eq_some inherited))
    exact List.find?_eq_none.mp unstubbed stub (List.mem_filter.mpr ⟨member, exported⟩) equal
  · exact concrete method (List.mem_of_find?_eq_some stub)
  · rw [← Bool.not_eq_true]
    intro unimplemented
    obtain ⟨stub, member, equal, _⟩ := covered method unimplemented (by
      rw [List.find?_append, uninherited, Option.none_or, deeper])
    exact List.find?_eq_none.mp unstubbed stub member equal

namespace Source

variable {source : Source} {name below : String} {declaration : Declaration} {result : Lineage}

/-- A class with concrete methods only is left with nothing to implement if its methods cover what it
inherits. -/
theorem abstractMembers_of_covered (bounded : source.Bounded)
    (has : source.HasLineage below result)
    (found : source.lookup below = .ok (some declaration)) (kind : declaration.kind = .classType)
    (concrete : ∀ stub ∈ declaration.methods, stub.isAbstract = false)
    (covered : ∀ method, method.isAbstract = true →
      (source.inherited declaration ++ result.ancestors.flatMap (·.methods)).find?
          (·.signature.same method.signature) = some method →
        ∃ stub ∈ declaration.methods.filter Method.isMember,
          stub.signature.same method.signature = true ∧
            (method.isPublic = true → stub.isPublic = true)) :
    result.abstractMembers = [] := by
  have classified : result.isInterface = false := by
    rw [Lineage.isInterface, has.self_kind found, kind]
    rfl
  rw [Lineage.abstractMembers_eq_nil]
  intro method first
  refine isAbstract_of_walk (declaration.methods.filter Method.isMember)
    (source.inherited declaration) (result.ancestors.flatMap (·.methods))
    (fun stub member => concrete stub (List.mem_filter.mp member).1) ?exposed covered ?first
  case exposed =>
    intro method handed
    rcases mem_inherited.mp handed with ⟨parent, _, member⟩ | ⟨⟨parent, _, member⟩, _⟩
    · exact isPublic_of_mem_surface bounded member
    · exact isPublic_of_mem_surface bounded member
  case first =>
    rw [Lineage.memberWalk_eq, classified, if_neg Bool.false_ne_true, Lineage.classChain,
      List.flatMap_cons, has.self_methods found, ← surface_of_hasLineage bounded has,
      surface_declared bounded has found, List.find?_append, find?_firstBySignature,
      ← List.find?_append] at first
    exact first

/-- Every member that is left open has a stub that source code can see, and a public one if it is
public. -/
theorem exists_stub (bounded : source.Bounded) (has : source.HasLineage name lineage)
    (unit : CompilationUnit) (member : method ∈ lineage.abstractMembers) :
    ∃ stub ∈ (lineage.implementer unit).normalized.methods.filter Method.isMember,
      stub.signature.same method.signature = true ∧
        (method.isPublic = true → stub.isPublic = true) := by
  refine ⟨method.implementedIn unit.qualifiedName, List.mem_filter.mpr ⟨?_, ?_⟩,
    Method.same_implementedIn, ?_⟩
  · rw [Lineage.methods_implementer]
    exact List.mem_map_of_mem member
  · exact Method.isMember_implementedIn (isMember_of_mem_abstractMembers bounded has member)
  · simp

/-- The root class, if it is known, has no supertypes and nothing but concrete methods. -/
def ConcreteRoot (source : Source) : Prop :=
  ∀ declaration, source.lookup rootClass = .ok (some declaration) →
    declaration.supertypes = [] ∧ ∀ method ∈ declaration.methods, method.isAbstract = false

namespace ConcreteRoot

theorem exists_lineage (root : source.ConcreteRoot) (knows : source.Knows rootClass) :
    ∃ lineage, source.HasLineage rootClass lineage := by
  obtain ⟨declaration, found⟩ := knows
  refine HasLineage.exists_of_supertypes found fun parent listed => ?_
  rw [(root declaration found).1] at listed
  contradiction

theorem isAbstract_of_mem_surface (root : source.ConcreteRoot) (bounded : source.Bounded)
    (member : method ∈ source.surface rootClass) : method.isAbstract = false := by
  obtain ⟨lineage, has⟩ := hasLineage_of_mem_surface member
  obtain ⟨declaration, found⟩ := has.knows
  obtain ⟨parentless, concrete⟩ := root declaration found
  rcases mem_surface_cases bounded has found member with own | ⟨parent, listed, _⟩
  · exact concrete method (List.mem_filter.mp (List.mem_filter.mp own).1).1
  · rw [parentless] at listed
    contradiction

theorem isAbstract_of_mem_level (root : source.ConcreteRoot) {level : Level}
    (has : source.HasLineage rootClass lineage) (chained : level ∈ lineage.classChain)
    (member : method ∈ level.methods) : method.isAbstract = false := by
  obtain ⟨declaration, found⟩ := has.knows
  obtain ⟨parentless, concrete⟩ := root declaration found
  rcases List.mem_cons.mp chained with rfl | higher
  · rw [has.self_methods found] at member
    exact concrete method (List.mem_filter.mp member).1
  · obtain ⟨parent, _, extended, _⟩ := has.mem_ancestors found higher
    have listed := Declaration.mem_supertypes_of_superclass extended
    rw [parentless] at listed
    contradiction

end ConcreteRoot

/-- What a class inherits from the class it extends is what that class walks over itself. -/
theorem abstractMembers_of_extending (bounded : source.Bounded)
    (has : source.HasLineage name lineage) (named : lineage.self.name.binaryName = name)
    (extending : unit.relation = .extending) (classified : lineage.isInterface = false)
    (hasBelow : source.HasLineage unit.qualifiedName result)
    (found : source.lookup unit.qualifiedName =
      .ok (some (lineage.implementer unit).normalized)) :
    result.abstractMembers = [] := by
  have superclass := Lineage.superclass_implementer lineage extending
  rw [named] at superclass
  refine abstractMembers_of_covered bounded hasBelow found rfl
    (fun _ => Lineage.isAbstract_of_mem_implementer) fun method unimplemented first => ?_
  have walk : source.inherited (lineage.implementer unit).normalized ++
      result.ancestors.flatMap (·.methods) = lineage.memberWalk := by
    rw [inherited, superclass, Lineage.interfaces_implementer_of_extending extending,
      hasBelow.ancestors_of_superclass found superclass has, Lineage.memberWalk_eq, classified]
    simp [surface_of_hasLineage bounded has]
  rw [walk] at first
  exact exists_stub bounded has unit (Lineage.mem_abstractMembers.mpr ⟨first, unimplemented⟩)

/-- Of what a class inherits beside the interface it implements, nothing is abstract. -/
theorem abstractMembers_of_implementing (bounded : source.Bounded) (root : source.ConcreteRoot)
    (notRoot : unit.qualifiedName ≠ rootClass)
    (has : source.HasLineage name lineage) (named : lineage.self.name.binaryName = name)
    (implementing : unit.relation = .implementing) (interface_ : lineage.isInterface = true)
    (hasBelow : source.HasLineage unit.qualifiedName result)
    (found : source.lookup unit.qualifiedName =
      .ok (some (lineage.implementer unit).normalized)) :
    result.abstractMembers = [] := by
  have superclass :=
    Lineage.rootClass_superclass_implementer lineage implementing notRoot
  refine abstractMembers_of_covered bounded hasBelow found rfl
    (fun _ => Lineage.isAbstract_of_mem_implementer) fun method unimplemented first => ?_
  have open_ : method.isAbstract ≠ false := by simp [unimplemented]
  -- The root class contributes nothing abstract, so the method comes from the interface.
  have handed : method ∈ source.surface name := by
    rcases List.mem_append.mp (List.mem_of_find?_eq_some first) with above | deeper
    · rw [mem_inherited, superclass, Lineage.interfaces_implementer_of_implementing implementing,
        named] at above
      rcases above with ⟨parent, isRoot, member⟩ | ⟨⟨parent, listed, member⟩, _⟩
      · cases isRoot
        exact absurd (root.isAbstract_of_mem_surface bounded member) open_
      · exact List.mem_singleton.mp listed ▸ member
    · obtain ⟨level, higher, declared⟩ := List.mem_flatMap.mp deeper
      obtain ⟨parent, above, extended, hasAbove, chained⟩ := hasBelow.mem_ancestors found higher
      rw [superclass] at extended
      cases extended
      exact absurd (root.isAbstract_of_mem_level hasAbove chained declared) open_
  refine exists_stub bounded has unit (Lineage.mem_abstractMembers.mpr ⟨?_, unimplemented⟩)
  rw [Lineage.memberWalk_eq, interface_, if_pos rfl, List.append_nil,
    ← surface_of_hasLineage bounded has]
  exact find?_eq_some_of_distinct (surface_distinct bounded has) handed

theorem exists_lineage_implementer (bounded : source.Bounded) (root : source.ConcreteRoot)
    (rootless : ¬ source.Knows rootClass → source.lookup rootClass = .ok none)
    (notRoot : unit.qualifiedName ≠ rootClass) {settings : StubSettings}
    (accepted : lineage.implementation settings = .ok unit)
    (has : source.HasLineage name lineage) (named : lineage.self.name.binaryName = name)
    (found : source.lookup unit.qualifiedName =
      .ok (some (lineage.implementer unit).normalized)) :
    ∃ result, source.HasLineage unit.qualifiedName result ∧ result.abstractMembers = [] := by
  have above (parent : String)
      (listed : parent ∈ (lineage.implementer unit).normalized.supertypes) :
      (∃ lineage, source.HasLineage parent lineage) ∨
        parent = rootClass ∧ source.lookup parent = .ok none := by
    rcases Lineage.mem_supertypes_implementer notRoot listed with rfl | rfl
    · by_cases knows : source.Knows rootClass
      · exact .inl (root.exists_lineage knows)
      · exact .inr ⟨rfl, rootless knows⟩
    · rw [named]
      exact .inl ⟨lineage, has⟩
  obtain ⟨result, hasBelow⟩ := HasLineage.exists_of_supertypes found above
  refine ⟨result, hasBelow, ?_⟩
  have relation := Lineage.relation_of_implementation accepted
  cases interface_ : lineage.isInterface with
  | false =>
      rw [interface_, if_neg Bool.false_ne_true] at relation
      exact abstractMembers_of_extending bounded has named relation interface_ hasBelow found
  | true =>
      rw [interface_, if_pos rfl] at relation
      exact abstractMembers_of_implementing bounded root notRoot has named relation interface_
        hasBelow found

end Source

/-- The generated class, declared beside the types it was generated from, can be assembled and has
nothing left to implement. -/
theorem Assembler.implementer_closes (settings : StubSettings) (catalog : Catalog) {name : String}
    {lineage : Lineage} {unit : CompilationUnit}
    (assembled : fresh (assemble (.ofCatalog catalog) name) = .ok lineage)
    (accepted : lineage.implementation settings = .ok unit)
    (unknown : catalog.find? unit.qualifiedName = none)
    (notRoot : unit.qualifiedName ≠ rootClass)
    (root : ∀ declaration, catalog.find? rootClass = some declaration →
      declaration.supertypes = [] ∧ ∀ method ∈ declaration.methods, method.isAbstract = false) :
    ∃ result,
      fresh (assemble (.ofCatalog (catalog.insert (lineage.implementer unit))) unit.qualifiedName) =
        .ok result ∧ result.abstractMembers = [] := by
  have bounded := Source.bounded_ofCatalog catalog
  have boundedBelow := Source.bounded_ofCatalog (catalog.insert (lineage.implementer unit))
  rw [fresh_assemble bounded] at assembled
  have has := (Source.assemble_eq_ok bounded).mp assembled
  have named : lineage.self.name.binaryName = name := by
    obtain ⟨declaration, declared⟩ := has.knows
    rw [has.self_name declared, Catalog.name_of_find? (Source.found_ofCatalog.mp declared)]
  have kept (type : String) : (catalog.insert (lineage.implementer unit)).find? type =
      if type = unit.qualifiedName then some (lineage.implementer unit).normalized
      else catalog.find? type :=
    Catalog.find?_insert unknown type
  have found := Source.found_ofCatalog.mpr ((kept unit.qualifiedName).trans (if_pos rfl))
  have concrete : (Source.ofCatalog (catalog.insert (lineage.implementer unit))).ConcreteRoot := by
    intro declaration found
    rw [Source.found_ofCatalog, kept, if_neg (Ne.symm notRoot)] at found
    exact root declaration found
  obtain ⟨result, hasBelow, closed⟩ := Source.exists_lineage_implementer boundedBelow concrete
    Source.unknown_ofCatalog notRoot accepted (has.insert unknown notRoot) named found
  rw [fresh_assemble boundedBelow]
  exact ⟨result, (Source.assemble_eq_ok boundedBelow).mpr hasBelow, closed⟩

/-- A class with members to implement from an interface and, less than public, from its superclass. -/
def layered : Catalog :=
  .ofDeclarations
    [.bare "java.lang.Object" .classType none [] [.bare "hashCode" [.publicAccess]],
      .bare "kit.Part" .interfaceType none [] [.bare "run" [.abstractMember], .bare "stop" []],
      .bare "kit.Base" .classType none []
        [.bare "open" [.abstractMember], .bare "shut" [.protectedAccess, .abstractMember]],
      .bare "kit.Target" .classType (some "kit.Base") ["kit.Part"]
        [.bare "shut" [.protectedAccess], .bare "stop" [.publicAccess, .abstractMember]]]

theorem Assembler.closes_layered :
    ∃ lineage unit, fresh (assemble (.ofCatalog layered) "kit.Target") = .ok lineage ∧
      lineage.implementation {} = .ok unit ∧
      lineage.abstractMembers.map Method.name = ["stop", "run", "open"] ∧
      ∃ result,
        fresh (assemble (.ofCatalog (layered.insert (lineage.implementer unit)))
          unit.qualifiedName) = .ok result ∧ result.abstractMembers = [] := by
  obtain ⟨lineage, unit, assembled, accepted, named, members⟩ : ∃ lineage unit,
      fresh (assemble (.ofCatalog layered) "kit.Target") = .ok lineage ∧
        lineage.implementation {} = .ok unit ∧ unit.qualifiedName = "kit.TargetImpl" ∧
        lineage.abstractMembers.map Method.name = ["stop", "run", "open"] :=
    ⟨_, _, rfl, rfl, by decide, by decide⟩
  have unknown : layered.find? unit.qualifiedName = none := by
    rw [named]
    decide
  have notRoot : unit.qualifiedName ≠ rootClass := by
    rw [named]
    decide
  have root (declaration : Declaration) (found : layered.find? rootClass = some declaration) :
      declaration.supertypes = [] ∧ ∀ method ∈ declaration.methods, method.isAbstract = false := by
    cases found
    decide
  exact ⟨lineage, unit, assembled, accepted, members,
    implementer_closes {} layered assembled accepted unknown notRoot root⟩

end Stubwright
