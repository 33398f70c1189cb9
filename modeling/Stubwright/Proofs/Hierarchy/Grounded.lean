import Stubwright.Proofs.Hierarchy.Termination

/-!
When assembling succeeds. A type is grounded if no type at or above it lies on a cycle of supertypes
and every supertype named on the way is known, the root class excepted. From a catalog exactly the
grounded types are assembled, each with the chain of its declared superclasses, and every other known
type is refused as one whose members cannot be told.
-/
namespace Stubwright

theorem failed_of_collect {answer : α → Except ε β} {elements : List α} {failure : ε}
    (failed : collect answer elements = .error failure) :
    ∃ element ∈ elements, answer element = .error failure := by
  induction elements with
  | nil => cases failed
  | cons first rest ih =>
      cases head : answer first with
      | error earlier =>
          rw [collect, head] at failed
          cases failed
          exact ⟨first, List.mem_cons_self, head⟩
      | ok value =>
          cases tail : collect answer rest with
          | ok values =>
              rw [collect, head, tail] at failed
              cases failed
          | error later =>
              rw [collect, head, tail] at failed
              cases failed
              obtain ⟨element, member, refused⟩ := ih tail
              exact ⟨element, List.mem_cons_of_mem first member, refused⟩

namespace Source

variable {source : Source} {name owner parent : String} {lineage : Lineage} {path : List String}
  {declaration : Declaration} {depth : Nat} {assemble : String → Except Failure Lineage}
  {failure : Failure} {catalog : Catalog}

/-- Looking a name up never fails: a name that is not known is answered with nothing. -/
def Answers (source : Source) : Prop :=
  ∀ name, ¬ source.Knows name → source.lookup name = .ok none

theorem Answers.lookup_ne_error (answers : source.Answers) :
    source.lookup name ≠ .error failure := by
  intro failed
  have unknown : ¬ source.Knows name := by
    rintro ⟨declaration, found⟩
    simp [failed] at found
  simp [answers name unknown] at failed

theorem answers_ofCatalog (catalog : Catalog) : (ofCatalog catalog).Answers :=
  fun _ unknown => unknown_ofCatalog unknown

/-- No type at or above a type is above itself, and no supertype of one is missing, but for the root
class. -/
structure Grounded (source : Source) (name : String) : Prop where
  acyclic : ∀ type, source.Reaches name type → ¬ source.Inherits type type
  resolved : ∀ type parent, source.Reaches name type → source.Extends type parent →
    source.Knows parent ∨ parent = rootClass

theorem Grounded.of_extends (grounded : source.Grounded name)
    (extended : source.Extends name parent) : source.Grounded parent where
  acyclic := fun type reached => grounded.acyclic type (.head extended reached)
  resolved := fun type above reached => grounded.resolved type above (.head extended reached)

theorem HasLineage.grounded (has : source.HasLineage name lineage) : source.Grounded name where
  acyclic := by
    intro type reached cycle
    rcases has.reaches reached with ⟨above, hasAbove⟩ | ⟨_, unknown⟩
    · exact hasAbove.not_inherits_self cycle
    · obtain ⟨parent, first, -⟩ := Relation.TransGen.head'_iff.mp cycle
      exact unknown_extends_nothing unknown first
  resolved := by
    intro type parent reached extended
    rcases has.reaches reached with ⟨above, hasAbove⟩ | ⟨_, unknown⟩
    · rcases hasAbove.of_extends extended with ⟨top, hasTop⟩ | ⟨root, _⟩
      · exact .inl hasTop.knows
      · exact .inr root
    · exact absurd extended (unknown_extends_nothing unknown)

/-- The induction goes up: a path that leads to a grounded type has not met it, so it leaves room for
one more name as long as it is known. -/
theorem Grounded.exists_lineage (grounded : source.Grounded name) (bounded : source.Bounded)
    (answers : source.Answers) (trail : source.Trail path name)
    (room : source.extent ≤ depth + path.length) (knows : source.Knows name) :
    ∃ lineage, source.HasLineage name lineage := by
  induction depth generalizing path name with
  | zero =>
      have fresh : name ∉ path := fun met => grounded.acyclic name .refl (trail.below name met)
      have short := trail.length_lt bounded fresh knows
      omega
  | succ depth ih =>
      have fresh : name ∉ path := fun met => grounded.acyclic name .refl (trail.below name met)
      obtain ⟨declaration, found⟩ := id knows
      refine HasLineage.exists_of_supertypes found fun parent listed => ?_
      have extended : source.Extends name parent := ⟨declaration, found, listed⟩
      by_cases known : source.Knows parent
      · have roomAbove : source.extent ≤ depth + (path ++ [name]).length := by
          simp only [List.length_append, List.length_singleton]
          omega
        exact .inl (ih (grounded.of_extends extended) (trail.step fresh extended) roomAbove known)
      · have root := (grounded.resolved name parent .refl extended).resolve_left known
        exact .inr ⟨root, answers parent known⟩

theorem exists_lineage_iff_grounded (bounded : source.Bounded) (answers : source.Answers)
    (knows : source.Knows name) :
    (∃ lineage, source.HasLineage name lineage) ↔ source.Grounded name := by
  have room : source.extent ≤ source.extent + ([] : List String).length := by simp
  exact ⟨fun ⟨_, has⟩ => has.grounded,
    fun grounded => grounded.exists_lineage bounded answers (.nil source name) room knows⟩

/-! Failing. A lookup that answers leaves only causes that name a type. -/

theorem failed_of_lineageOf (failed : source.lineageOf assemble declaration = .error failure) :
    ∃ parent ∈ declaration.supertypes,
      source.supertype assemble declaration.name parent = .error failure := by
  rcases failed_of_bind failed with upwards | ⟨_, _, rest⟩
  · unfold superclassOf at upwards
    split at upwards
    · cases upwards
    · rename_i parent extended
      exact ⟨parent, Declaration.mem_supertypes_of_superclass extended, upwards⟩
  · rcases failed_of_bind rest with collected | ⟨_, _, done⟩
    · obtain ⟨parent, listed, refused⟩ := failed_of_collect collected
      exact ⟨parent, Declaration.mem_supertypes_of_interface listed, refused⟩
    · cases done

theorem notIntrospectable_of_supertype (answers : source.Answers)
    (above : assemble parent = .error failure →
      ∃ type cause, failure = .notIntrospectable type cause)
    (failed : source.supertype assemble owner parent = .error failure) :
    ∃ type cause, failure = .notIntrospectable type cause := by
  unfold supertype at failed
  cases answer : source.lookup parent with
  | error earlier => exact absurd answer answers.lookup_ne_error
  | ok found =>
      rw [answer] at failed
      cases found with
      | some declaration =>
          cases assembled : assemble parent with
          | error earlier =>
              simp only [assembled, Except.map] at failed
              cases failed
              exact above assembled
          | ok lineage => simp [assembled, Except.map] at failed
      | none =>
          by_cases root : parent = rootClass
          · simp [root] at failed
          · simp only [if_neg root, Except.error.injEq] at failed
            exact ⟨owner, _, failed.symm⟩

theorem notIntrospectable_of_assembleBelow (answers : source.Answers)
    (failed : source.assembleBelow depth path name = .error failure) :
    ∃ type cause, failure = .notIntrospectable type cause := by
  induction depth generalizing path name failure with
  | zero =>
      cases failed
      exact ⟨_, _, rfl⟩
  | succ depth ih =>
      by_cases met : name ∈ path
      · rw [assembleBelow, if_pos met] at failed
        cases failed
        exact ⟨_, _, rfl⟩
      · cases answer : source.lookup name with
        | error earlier => exact absurd answer answers.lookup_ne_error
        | ok found =>
            cases found with
            | none =>
                rw [assembleBelow, if_neg met, answer] at failed
                cases failed
                exact ⟨_, _, rfl⟩
            | some declaration =>
                rw [assembleBelow_declared met answer] at failed
                obtain ⟨parent, -, refused⟩ := failed_of_lineageOf failed
                exact notIntrospectable_of_supertype answers ih refused

/-! The class chain of a lineage. -/

def Subclass (source : Source) (lower upper : String) : Prop :=
  ∃ declaration, source.lookup lower = .ok (some declaration) ∧ declaration.superclass = some upper

/-- A type without a superclass, or below the root class where that is missing. -/
def Topmost (source : Source) (name : String) : Prop :=
  ∃ declaration, source.lookup name = .ok (some declaration) ∧
    (declaration.superclass = none ∨
      declaration.superclass = some rootClass ∧ source.lookup rootClass = .ok none)

/-- The levels of a lineage are the type and its superclasses as they are declared, to the last. -/
structure Chained (source : Source) (name : String) (lineage : Lineage) : Prop where
  starts : lineage.self.name.binaryName = name
  distinct : (lineage.classChain.map (·.name.binaryName)).Nodup
  linked : (lineage.classChain.map (·.name.binaryName)).IsChain source.Subclass
  ends : ∃ last, (lineage.classChain.map (·.name.binaryName)).getLast? = some last ∧
    source.Topmost last
  declaring : ∀ level ∈ lineage.classChain, ∀ method ∈ level.methods,
    method.declaringType = level.name.binaryName

theorem extends_of_subclass (subclass : source.Subclass name parent) : source.Extends name parent :=
  let ⟨declaration, found, extended⟩ := subclass
  ⟨declaration, found, Declaration.mem_supertypes_of_superclass extended⟩

theorem reaches_of_linked {above : List String}
    (linked : (name :: above).IsChain source.Subclass) :
    ∀ type ∈ above, source.Inherits name type := by
  induction above generalizing name with
  | nil => simp
  | cons next above ih =>
      obtain ⟨subclass, linked⟩ := List.isChain_cons_cons.mp linked
      intro type member
      rcases List.mem_cons.mp member with rfl | higher
      · exact .single (extends_of_subclass subclass)
      · exact .head (extends_of_subclass subclass) (ih linked type higher)

theorem HasLineage.ancestors_cases (has : source.HasLineage name lineage)
    (found : source.lookup name = .ok (some declaration)) :
    (∃ parent above, declaration.superclass = some parent ∧ source.HasLineage parent above ∧
      lineage.ancestors = above.classChain) ∨
      lineage.ancestors = [] ∧ (declaration.superclass = none ∨
        declaration.superclass = some rootClass ∧ source.lookup rootClass = .ok none) := by
  cases extended : declaration.superclass with
  | none =>
      obtain ⟨handed, rfl, -⟩ := has.handed found
      exact .inr ⟨by simp [Declaration.lineage, extended], .inl rfl⟩
  | some parent =>
      have listed := Declaration.mem_supertypes_of_superclass extended
      rcases has.of_extends ⟨declaration, found, listed⟩ with ⟨above, hasAbove⟩ | ⟨rfl, unknown⟩
      · exact .inl ⟨parent, above, rfl, hasAbove,
          has.ancestors_of_superclass found extended hasAbove⟩
      · obtain ⟨handed, rfl, known, -⟩ := has.handed found
        have missing : handed rootClass = none := by
          cases answer : handed rootClass with
          | none => rfl
          | some above =>
              exact absurd unknown ((known _ listed above).mp answer).lookup_ne_none
        exact .inr ⟨by simp [Declaration.lineage, extended, missing], .inr ⟨rfl, unknown⟩⟩

theorem HasLineage.self_declares (has : (ofCatalog catalog).HasLineage name lineage)
    (found : (ofCatalog catalog).lookup name = .ok (some declaration)) :
    lineage.self.name.binaryName = name ∧
      ∀ method ∈ lineage.self.methods, method.declaringType = name := by
  have known := found_ofCatalog.mp found
  constructor
  · rw [has.self_name found, Catalog.name_of_find? known]
  · intro method member
    rw [has.self_methods found] at member
    rw [Declaration.declaringType_of_mem (Catalog.normalized_of_find? known)
      (List.mem_filter.mp member).1, Catalog.name_of_find? known]

theorem Chained.extend {upper : Lineage} (chain : source.Chained parent upper)
    (subclass : source.Subclass name parent) (has : source.HasLineage name lineage)
    (starts : lineage.self.name.binaryName = name)
    (own : ∀ method ∈ lineage.self.methods, method.declaringType = name)
    (ancestors : lineage.ancestors = upper.classChain) : source.Chained name lineage := by
  have names : lineage.classChain.map (·.name.binaryName) =
      name :: upper.classChain.map (·.name.binaryName) := by
    rw [Lineage.classChain, List.map_cons, starts, ancestors]
  have first : upper.classChain.map (·.name.binaryName) =
      parent :: upper.ancestors.map (·.name.binaryName) := by
    rw [Lineage.classChain, List.map_cons, chain.starts]
  have linked : (name :: upper.classChain.map (·.name.binaryName)).IsChain source.Subclass := by
    have higher := chain.linked
    rw [first] at higher ⊢
    exact List.isChain_cons_cons.mpr ⟨subclass, higher⟩
  refine ⟨starts, ?_, names ▸ linked, ?_, ?_⟩
  · rw [names]
    refine List.nodup_cons.mpr ⟨fun again => ?_, chain.distinct⟩
    exact has.not_inherits_self (reaches_of_linked linked name again)
  · obtain ⟨last, ended, topmost⟩ := chain.ends
    exact ⟨last, by rw [names, List.getLast?_cons, ended, Option.getD_some], topmost⟩
  · intro level member method declared
    rcases List.mem_cons.mp member with rfl | higher
    · rw [starts, own method declared]
    · rw [ancestors] at higher
      exact chain.declaring level higher method declared

theorem HasLineage.chained (has : (ofCatalog catalog).HasLineage name lineage) :
    (ofCatalog catalog).Chained name lineage := by
  induction has using HasLineage.climb with
  | @step name lineage declaration has found above =>
      obtain ⟨starts, own⟩ := has.self_declares found
      rcases has.ancestors_cases found with
        ⟨parent, upper, extended, hasUpper, ancestors⟩ | ⟨ancestors, top⟩
      · have chain := above parent (Declaration.mem_supertypes_of_superclass extended) upper hasUpper
        exact chain.extend ⟨declaration, found, extended⟩ has starts own ancestors
      · have alone : lineage.classChain = [lineage.self] := by
          rw [Lineage.classChain, ancestors]
        refine ⟨starts, ?_, ?_, ?_, ?_⟩
        · simp [alone]
        · simp [alone]
        · exact ⟨name, by simp [alone, starts], declaration, found, top⟩
        · intro level member method declared
          rw [alone, List.mem_singleton] at member
          subst member
          rw [starts, own method declared]

end Source

namespace Assembler

open Source

/-- Of the types that a catalog knows, the grounded ones are assembled and the others refused; both
without end of calls. -/
theorem assemble_ok_iff_grounded (catalog : Catalog) {name : String}
    (knows : (ofCatalog catalog).Knows name) :
    Ends (ofCatalog catalog) name ∧
      ((∃ lineage, fresh (assemble (ofCatalog catalog) name) = .ok lineage) ↔
        (ofCatalog catalog).Grounded name) ∧
      (¬ (ofCatalog catalog).Grounded name →
        ∃ type cause, fresh (assemble (ofCatalog catalog) name) =
          .error (.notIntrospectable type cause)) ∧
      ∀ lineage, fresh (assemble (ofCatalog catalog) name) = .ok lineage →
        (ofCatalog catalog).Chained name lineage := by
  have bounded := bounded_ofCatalog catalog
  have answers := answers_ofCatalog catalog
  have succeeds : (∃ lineage, fresh (assemble (ofCatalog catalog) name) = .ok lineage) ↔
      (ofCatalog catalog).Grounded name := by
    simp only [fresh_assemble bounded, assemble_eq_ok bounded]
    exact exists_lineage_iff_grounded bounded answers knows
  refine ⟨ends bounded name, succeeds, fun ungrounded => ?_, fun lineage assembled => ?_⟩
  · cases answer : fresh (assemble (ofCatalog catalog) name) with
    | ok lineage => exact absurd (succeeds.mp ⟨lineage, answer⟩) ungrounded
    | error failure =>
        rw [fresh_assemble bounded] at answer
        obtain ⟨type, cause, rfl⟩ := notIntrospectable_of_assembleBelow answers answer
        exact ⟨type, cause, rfl⟩
  · rw [fresh_assemble bounded, assemble_eq_ok bounded] at assembled
    exact assembled.chained

/-- A class below a class that meets an interface twice, and a class below a cycle which leads over
an interface. -/
def tangled : Catalog :=
  .ofDeclarations
    [.bare "kit.Leaf" .classType (some "kit.Base") ["kit.Part"] [.bare "run" []],
      .bare "kit.Base" .classType none ["kit.Part"] [.bare "stop" []],
      .bare "kit.Part" .interfaceType none [] [],
      .bare "kit.Into" .classType (some "kit.Loop") [] [],
      .bare "kit.Loop" .classType none ["kit.Ring"] [],
      .bare "kit.Ring" .interfaceType none ["kit.Loop"] []]

theorem ungrounded_tangled : ¬ (ofCatalog tangled).Grounded "kit.Into" := by
  have into : (ofCatalog tangled).Extends "kit.Into" "kit.Loop" := ⟨_, rfl, by decide⟩
  have forth : (ofCatalog tangled).Extends "kit.Loop" "kit.Ring" := ⟨_, rfl, by decide⟩
  have back : (ofCatalog tangled).Extends "kit.Ring" "kit.Loop" := ⟨_, rfl, by decide⟩
  exact fun grounded => grounded.acyclic "kit.Loop" (.single into) (.tail (.single forth) back)

theorem grounded_and_refused_tangled :
    (ofCatalog tangled).Knows "kit.Leaf" ∧ (ofCatalog tangled).Grounded "kit.Leaf" ∧
      (∃ lineage, fresh (assemble (ofCatalog tangled) "kit.Leaf") = .ok lineage ∧
        lineage.classChain.map (·.name.binaryName) = ["kit.Leaf", "kit.Base"] ∧
        (ofCatalog tangled).Topmost "kit.Base") ∧
      (ofCatalog tangled).Knows "kit.Into" ∧
      ∃ type cause, fresh (assemble (ofCatalog tangled) "kit.Into") =
        .error (.notIntrospectable type cause) := by
  have knows : (ofCatalog tangled).Knows "kit.Leaf" := ⟨_, rfl⟩
  have knowsInto : (ofCatalog tangled).Knows "kit.Into" := ⟨_, rfl⟩
  obtain ⟨lineage, assembled, names⟩ : ∃ lineage,
      fresh (assemble (ofCatalog tangled) "kit.Leaf") = .ok lineage ∧
        lineage.classChain.map (·.name.binaryName) = ["kit.Leaf", "kit.Base"] :=
    ⟨_, rfl, by decide⟩
  obtain ⟨-, succeeds, -, chained⟩ := assemble_ok_iff_grounded tangled knows
  obtain ⟨-, -, refused, -⟩ := assemble_ok_iff_grounded tangled knowsInto
  obtain ⟨last, ended, topmost⟩ := (chained lineage assembled).ends
  rw [names] at ended
  cases ended
  exact ⟨knows, succeeds.mp ⟨lineage, assembled⟩, ⟨lineage, assembled, names, topmost⟩, knowsInto,
    refused ungrounded_tangled⟩

end Assembler

end Stubwright
