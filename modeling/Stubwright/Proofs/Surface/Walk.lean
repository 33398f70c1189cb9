import Stubwright.Proofs.Hierarchy.CatalogSource
import Stubwright.Proofs.Hierarchy.Memory
import Stubwright.Proofs.Surface.Candidates
import Mathlib.Data.List.Find

/-!
The public surface against a walk through the whole hierarchy. The walk forgets nothing: it lists the
public methods of a type and then those of its supertypes, as often as it meets them. A surface keeps
the first of each signature, on every level anew, and leaves out the static methods of interfaces.
-/
namespace Stubwright

theorem find?_flatMap_congr {left right : α → List β} {accepts : β → Bool} {elements : List α}
    (agree : ∀ element ∈ elements, (left element).find? accepts = (right element).find? accepts) :
    (elements.flatMap left).find? accepts = (elements.flatMap right).find? accepts := by
  induction elements with
  | nil => rfl
  | cons first rest ih =>
      have tail := ih fun element member => agree element (by simp [member])
      rw [List.flatMap_cons, List.flatMap_cons, List.find?_append, List.find?_append,
        agree first (by simp), tail]

namespace Source

variable {source : Source} {name parent : String} {lineage : Lineage} {declaration : Declaration}
  {method : Method} {depth : Nat}

def walkBelow (source : Source) : (depth : Nat) → String → List Method
  | 0, _ => []
  | depth + 1, name =>
      match source.lookup name with
      | .ok (some declaration) =>
          declaration.publicMembers ++ declaration.supertypes.flatMap (source.walkBelow depth)
      | _ => []

/-- The public methods of a type, then those of its superclass and of its interfaces in their order,
each with everything above it. -/
def walk (source : Source) (name : String) : List Method :=
  source.walkBelow source.extent name

theorem walkBelow_declared (found : source.lookup name = .ok (some declaration)) :
    source.walkBelow (depth + 1) name =
      declaration.publicMembers ++ declaration.supertypes.flatMap (source.walkBelow depth) := by
  rw [walkBelow, found]

theorem walkBelow_unknown (unknown : ¬ source.Knows name) : source.walkBelow depth name = [] := by
  cases depth with
  | zero => rfl
  | succ depth =>
      rw [walkBelow]
      split
      · rename_i declaration found
        exact absurd ⟨declaration, found⟩ unknown
      · rfl

theorem walkBelow_of_within (within : source.Within depth name) {larger : Nat}
    (enough : depth ≤ larger) : source.walkBelow larger name = source.walkBelow depth name := by
  induction depth generalizing name larger with
  | zero => rw [walkBelow_unknown within, walkBelow_unknown within]
  | succ depth ih =>
      obtain ⟨larger, rfl⟩ : ∃ fewer, larger = fewer + 1 := ⟨larger - 1, by omega⟩
      by_cases knows : source.Knows name
      · obtain ⟨declaration, found⟩ := knows
        rw [walkBelow_declared found, walkBelow_declared found]
        congr 1
        exact List.flatMap_congr fun parent listed =>
          ih (within parent ⟨declaration, found, listed⟩) (by omega)
      · rw [walkBelow_unknown knows, walkBelow_unknown knows]

theorem walk_unknown (unknown : source.lookup name = .ok none) : source.walk name = [] :=
  walkBelow_unknown fun ⟨declaration, found⟩ => by simp [found] at unknown

theorem walk_declared (bounded : source.Bounded) (has : source.HasLineage name lineage)
    (found : source.lookup name = .ok (some declaration)) :
    source.walk name = declaration.publicMembers ++ declaration.supertypes.flatMap source.walk := by
  have within : source.Within source.extent name :=
    has.within bounded (.nil source name) (by simp)
  rw [walk, ← walkBelow_of_within within (Nat.le_succ source.extent), walkBelow_declared found]
  rfl

theorem mem_walk_of_mem_surface (bounded : source.Bounded) (has : source.HasLineage name lineage)
    (member : method ∈ source.surface name) : method ∈ source.walk name := by
  induction has using HasLineage.climb with
  | @step name lineage declaration has found above =>
      rw [walk_declared bounded has found]
      rcases mem_surface_cases bounded has found member with own | ⟨parent, listed, inherited⟩
      · exact List.mem_append_left _ own
      · obtain ⟨lineage, hasAbove⟩ := hasLineage_of_mem_surface inherited
        exact List.mem_append_right _
          (List.mem_flatMap.mpr ⟨parent, listed, above parent listed lineage hasAbove inherited⟩)

def FreeOfStatic (source : Source) (name : String) (signature : Signature) : Prop :=
  ∀ type declaration, source.Reaches name type → source.lookup type = .ok (some declaration) →
    ∀ method ∈ declaration.publicMembers, method.signature.same signature = true →
      method.isStatic = false

theorem FreeOfStatic.of_extends {signature : Signature} (free : source.FreeOfStatic name signature)
    (extended : source.Extends name parent) : source.FreeOfStatic parent signature :=
  fun type declaration reached => free type declaration (.head extended reached)

theorem FreeOfStatic.isStatic_eq_false (bounded : source.Bounded) {signature : Signature}
    (free : source.FreeOfStatic name signature) (member : method ∈ source.surface name)
    (equal : method.signature.same signature = true) : method.isStatic = false := by
  obtain ⟨type, declaration, reached, found, declared⟩ := declared_of_mem_surface bounded member
  exact free type declaration reached found method declared equal

/-- Without static methods of a signature nothing of that signature is left out on the way down. -/
theorem find?_inherited (bounded : source.Bounded)
    (found : source.lookup name = .ok (some declaration)) {signature : Signature}
    (free : source.FreeOfStatic name signature) :
    (source.inherited declaration).find? (·.signature.same signature) =
      (declaration.supertypes.flatMap source.surface).find? (·.signature.same signature) := by
  have shared : ((declaration.interfaces.flatMap source.surface).filter (!·.isStatic)).find?
        (·.signature.same signature) =
      (declaration.interfaces.flatMap source.surface).find? (·.signature.same signature) := by
    rw [List.find?_filter]
    refine List.find?_congr fun method member => ?_
    obtain ⟨parent, listed, handed⟩ := List.mem_flatMap.mp member
    have extended : source.Extends name parent :=
      ⟨declaration, found, Declaration.mem_supertypes_of_interface listed⟩
    cases equal : method.signature.same signature with
    | false => simp
    | true => simp [(free.of_extends extended).isStatic_eq_false bounded handed equal]
  rw [inherited, List.find?_append, shared, ← List.find?_append, ← List.flatMap_append,
    ← Declaration.supertypes]

/-- Where no static method gets in the way, choosing on every level anew finds what one search
through the whole walk finds. -/
theorem find?_surface (bounded : source.Bounded) (has : source.HasLineage name lineage)
    {signature : Signature} (free : source.FreeOfStatic name signature) :
    (source.surface name).find? (·.signature.same signature) =
      (source.walk name).find? (·.signature.same signature) := by
  induction has using HasLineage.climb with
  | @step name lineage declaration has found above =>
      have step (parent : String) (listed : parent ∈ declaration.supertypes) :
          (source.surface parent).find? (·.signature.same signature) =
            (source.walk parent).find? (·.signature.same signature) := by
        have extended : source.Extends name parent := ⟨declaration, found, listed⟩
        rcases has.of_extends extended with ⟨lineage, hasAbove⟩ | ⟨_, unknown⟩
        · exact above parent listed lineage hasAbove (free.of_extends extended)
        · rw [surface_unknown unknown, walk_unknown unknown]
      -- Dropping later methods of a signature changes no search, so both sides search the same
      -- levels one after the other.
      rw [surface_declared bounded has found, walk_declared bounded has found,
        find?_firstBySignature, candidates, List.find?_append, List.find?_append,
        find?_inherited bounded found free, find?_flatMap_congr step]

/-- The surface that an assembler finds in a catalog: no signature twice, nothing but methods of the
walk under the names of their types, static ones from the class chain only, and without static
methods in the way the first of each signature. -/
theorem assembled_surface_eq_walk (catalog : Catalog) {name : String} {lineage : Lineage}
    (assembled : Assembler.fresh (Assembler.assemble (ofCatalog catalog) name) = .ok lineage) :
    (∀ type, (ofCatalog catalog).Reaches name type →
      (ofCatalog catalog).walk type =
        match catalog.find? type with
        | some declaration => declaration.publicMembers ++
            declaration.supertypes.flatMap (ofCatalog catalog).walk
        | none => []) ∧
    (lineage.self.publicMethods.Pairwise fun earlier later =>
      earlier.signature.same later.signature = false) ∧
    (∀ method ∈ lineage.self.publicMethods,
      method ∈ (ofCatalog catalog).walk name ∧
        (ofCatalog catalog).Reaches name method.declaringType ∧
        ∃ declaration, catalog.find? method.declaringType = some declaration ∧
          method ∈ declaration.publicMembers) ∧
    (∀ method ∈ lineage.self.publicMethods, method.isStatic = true →
      ∃ level ∈ lineage.classChain,
        level.name.binaryName = method.declaringType ∧ method ∈ level.methods) ∧
    ∀ signature, (ofCatalog catalog).FreeOfStatic name signature →
      lineage.self.publicMethods.find? (·.signature.same signature) =
        ((ofCatalog catalog).walk name).find? (·.signature.same signature) := by
  have bounded := bounded_ofCatalog catalog
  rw [Assembler.fresh_assemble bounded] at assembled
  have has := (assemble_eq_ok bounded).mp assembled
  rw [← surface_of_hasLineage bounded has]
  refine ⟨?recursion, surface_distinct bounded has, ?walked, ?static, fun _ => find?_surface bounded has⟩
  case recursion =>
    intro type reached
    cases known : catalog.find? type with
    | none => exact walk_unknown (congrArg Except.ok known)
    | some declaration =>
        have found := found_ofCatalog.mpr known
        rcases has.reaches reached with ⟨above, hasAbove⟩ | ⟨_, unknown⟩
        · exact walk_declared bounded hasAbove found
        · simp [found] at unknown
  case walked =>
    intro method member
    refine ⟨mem_walk_of_mem_surface bounded has member, ?_⟩
    obtain ⟨type, declaration, reached, found, declared⟩ := declared_of_mem_surface bounded member
    rw [found_ofCatalog] at found
    rw [Catalog.declaringType_of_found found declared]
    exact ⟨reached, declaration, found, declared⟩
  case static =>
    intro method member static
    obtain ⟨level, chained, own, type, declaration, found, declared, named⟩ :=
      level_of_static bounded has member static
    rw [found_ofCatalog] at found
    refine ⟨level, chained, ?_, own⟩
    rw [named, Catalog.declaringType_of_found found declared, Catalog.name_of_find? found]

/-- A class that meets one interface above two others, and a static method in one of these. -/
def diamond : Catalog :=
  .ofDeclarations
    [.bare "Top" .interfaceType none [] [.bare "run" [.abstractMember], .bare "stop" []],
      .bare "Left" .interfaceType none ["Top"] [.bare "run" [], .bare "of" [.staticMember]],
      .bare "Right" .interfaceType none ["Top"] [.bare "stop" [.abstractMember]],
      .bare "Target" .classType none ["Left", "Right"] [.bare "make" [.publicAccess, .staticMember]]]

theorem assembled_surface_of_diamond :
    ∃ lineage, Assembler.fresh (Assembler.assemble (ofCatalog diamond) "Target") = .ok lineage ∧
      lineage.self.publicMethods.map Method.declaringType = ["Target", "Left", "Top"] ∧
      ∀ method ∈ lineage.self.publicMethods, method.isStatic = true →
        ∃ level ∈ lineage.classChain,
          level.name.binaryName = method.declaringType ∧ method ∈ level.methods := by
  obtain ⟨lineage, assembled, owners⟩ : ∃ lineage,
      Assembler.fresh (Assembler.assemble (ofCatalog diamond) "Target") = .ok lineage ∧
        lineage.self.publicMethods.map Method.declaringType = ["Target", "Left", "Top"] :=
    ⟨_, rfl, by decide⟩
  exact ⟨lineage, assembled, owners, (assembled_surface_eq_walk diamond assembled).2.2.2.1⟩

end Source

end Stubwright
