import Stubwright.Proofs.Hierarchy.CatalogSource
import Stubwright.Hierarchy.Assembler
import Stubwright.Proofs.Stub.AbstractMembers
import Mathlib.Data.List.Pairwise

/-!
Stubs that declare one method twice. Members are told apart by the binary names of their parameters,
but source code writes a period for every dollar sign. Two stubs of a class collide exactly if the
members behind them differ in nothing but the spelling of nested types.
-/
namespace Stubwright

theorem swapped_append (old new : Char) (left right : String) :
    Text.swapped old new (left ++ right) =
      Text.swapped old new left ++ Text.swapped old new right := by
  simp [Text.swapped, Text.swap]

namespace JavaType

theorem swapped_brackets (rank : Nat) : Text.swapped '$' '.' (brackets rank) = brackets rank := by
  have kept : ∀ c ∈ (List.replicate rank ['[', ']']).flatten, (if c = '$' then '.' else c) = c := by
    intro c member
    obtain ⟨pair, listed, member⟩ := List.mem_flatten.mp member
    rw [List.eq_of_mem_replicate listed] at member
    rcases List.mem_pair.mp member with rfl | rfl <;> rfl
  rw [Text.swapped, Text.swap, brackets, String.toList_ofList, List.map_congr_left kept,
    List.map_id']

/-- The spelling of source code is the binary one with periods for dollar signs. -/
theorem sourceName_eq_swapped (type : JavaType) :
    type.sourceName = Text.swapped '$' '.' type.binaryName := by
  induction type with
  | void => rfl
  | primitive kind => cases kind <;> rfl
  | reference name => rfl
  | array element rank ih =>
      rw [sourceName, binaryName, swapped_append, swapped_brackets, ih]

end JavaType

/-- What a stub declares: the name and the parameter types, as source code writes them. -/
def Method.declared (method : Method) : String × List String :=
  (method.name, method.parameters.map JavaType.sourceName)

/-- The same parameters but for the spelling of nested types, and not the same spelling. -/
def Signature.Respells (left right : Signature) : Prop :=
  left.name = right.name ∧ left.parameterNames ≠ right.parameterNames ∧
    left.parameterNames.map (Text.swapped '$' '.') = right.parameterNames.map (Text.swapped '$' '.')

theorem Method.declared_eq (method : Method) :
    method.declared = (method.signature.name,
      method.signature.parameterNames.map (Text.swapped '$' '.')) := by
  have written : method.parameters.map JavaType.sourceName =
      (method.parameters.map JavaType.binaryName).map (Text.swapped '$' '.') := by
    rw [List.map_map]
    exact List.map_congr_left fun type _ => type.sourceName_eq_swapped
  rw [declared, written]
  rfl

theorem Method.respells_iff {left right : Method} :
    left.signature.Respells right.signature ↔
      left.signature.same right.signature = false ∧ left.declared = right.declared := by
  rw [declared_eq, declared_eq, Prod.mk.injEq, ← Bool.not_eq_true, Signature.same_iff]
  constructor
  · rintro ⟨named, respelled, written⟩
    exact ⟨fun same => respelled same.2, named, written⟩
  · rintro ⟨different, named, written⟩
    exact ⟨named, fun spelled => different ⟨named, spelled⟩, written⟩

namespace Lineage

variable {lineage : Lineage} {settings : StubSettings} {unit : CompilationUnit}

theorem methods_of_implementation (accepted : lineage.implementation settings = .ok unit) :
    unit.methods = lineage.abstractMembers.map (Method.stub settings.indent) := by
  obtain ⟨_, _, accepted⟩ := ok_of_bind accepted
  obtain ⟨constructor, _, accepted⟩ := ok_of_bind accepted
  cases accepted
  rfl

theorem abstractMembers_distinct (lineage : Lineage) :
    lineage.abstractMembers.Pairwise fun earlier later =>
      earlier.signature.same later.signature = false :=
  (pairwise_firstBySignature lineage.memberWalk).sublist List.filter_sublist

/-- The abstract methods that decide about a signature: no method of the walk comes before them. -/
def Leads (lineage : Lineage) (method : Method) : Prop :=
  lineage.memberWalk.find? (·.signature.same method.signature) = some method ∧
    method.isAbstract = true

/-- The stubs of a unit declare different methods exactly if no two abstract methods that decide
about their signatures are respellings of each other. -/
theorem stubs_distinct_iff_no_respelling (accepted : lineage.implementation settings = .ok unit) :
    unit.methods = lineage.abstractMembers.map (Method.stub settings.indent) ∧
      ((lineage.abstractMembers.Pairwise fun earlier later => earlier.declared ≠ later.declared) ↔
        ∀ first second, lineage.Leads first → lineage.Leads second →
          ¬ first.signature.Respells second.signature) := by
  refine ⟨methods_of_implementation accepted, ?_⟩
  constructor
  · intro distinct first second leads leadsToo respelled
    have symmetric : Std.Symm fun earlier later : Method => earlier.declared ≠ later.declared :=
      ⟨fun _ _ => Ne.symm⟩
    have apart : first ≠ second := by
      rintro rfl
      exact respelled.2.1 rfl
    exact distinct.forall (mem_abstractMembers.mpr leads) (mem_abstractMembers.mpr leadsToo) apart
      (Method.respells_iff.mp respelled).2
  · intro unspelled
    refine lineage.abstractMembers_distinct.imp_of_mem fun earlier later different same => ?_
    exact unspelled _ _ (mem_abstractMembers.mp earlier) (mem_abstractMembers.mp later)
      (Method.respells_iff.mpr ⟨different, same⟩)

/-- An interface below one from another catalog, each with a method of its own over the same nested
type, once with a dollar sign and once with a period. -/
def respelled : List Catalog :=
  let put (spelling : String) : Method :=
    { Method.bare "put" [.abstractMember] with parameters := [.reference spelling] }
  [.ofDeclarations [.bare "kit.Base" .interfaceType none [] [put "kit.Table$Row"]],
    .ofDeclarations [.bare "kit.Target" .interfaceType none ["kit.Base"] [put "kit.Table.Row"]]]

theorem same_stub_twice :
    ∃ lineage unit, (Source.ofCatalogs respelled).describe "kit.Target" = .ok lineage ∧
      lineage.implementation {} = .ok unit ∧
      unit.methods =
        ["public void put(kit.Table.Row p0) \x7b\n\x7d\n",
          "public void put(kit.Table.Row p0) \x7b\n\x7d\n"] ∧
      ¬ lineage.abstractMembers.Pairwise fun earlier later =>
        earlier.declared ≠ later.declared :=
  ⟨_, _, rfl, rfl, by decide, by decide⟩

/-- A unit may declare one method twice. -/
theorem stubs_not_distinct :
    ¬ ∀ (catalogs : List Catalog) (written : String) (lineage : Lineage) (settings : StubSettings)
      (unit : CompilationUnit), (Source.ofCatalogs catalogs).describe written = .ok lineage →
        lineage.implementation settings = .ok unit →
          lineage.abstractMembers.Pairwise fun earlier later =>
            earlier.declared ≠ later.declared := by
  intro always
  obtain ⟨lineage, unit, described, accepted, -, repeated⟩ := same_stub_twice
  exact repeated (always respelled "kit.Target" lineage {} unit described accepted)

theorem respelling_of_same_stub :
    ∃ lineage unit, (Source.ofCatalogs respelled).describe "kit.Target" = .ok lineage ∧
      lineage.implementation {} = .ok unit ∧ unit.methods.length = 2 ∧
      ∃ first second, lineage.Leads first ∧ lineage.Leads second ∧
        first.signature.Respells second.signature := by
  obtain ⟨lineage, unit, described, accepted, written, repeated⟩ := same_stub_twice
  have respelling := (stubs_distinct_iff_no_respelling accepted).2.not.mp repeated
  push Not at respelling
  exact ⟨lineage, unit, described, accepted, by simp [written], respelling⟩

end Lineage

end Stubwright
