import Stubwright.Proofs.Catalog.TypeSpelling
import Stubwright.Proofs.ClassFile.Descriptor
import Stubwright.Proofs.Stub.WrittenTypes
import Mathlib.Data.List.Infix
import Mathlib.Data.Nat.PSub

/-!
Ranks of array types. Types are read flat, and they stay flat whatever is done to their rank, so
there is always a dimension to take off an array. A machine that gives up at numbers that are too
large and at differences below zero computes the same ranks, as long as all of them are small enough.
-/
namespace Stubwright

namespace JavaType

def rank : JavaType → Nat
  | array _ rank => rank
  | void | primitive _ | reference _ => 0

/-- `arrayOf` on a machine whose numbers stay below a limit. -/
def arrayOfWithin (limit : Nat) (type : JavaType) (count : Nat) : Option JavaType :=
  if type.rank + count < limit then some (type.arrayOf count) else none

/-- `component` on such a machine, where no number is below zero either. -/
def componentWithin (limit : Nat) : JavaType → Option JavaType
  | array element rank => (rank.psub 1).bind (element.arrayOfWithin limit)
  | other => some other

inductive RankStep where
  | wrap (count : Nat)
  | unwrap
deriving DecidableEq, Repr

namespace RankStep

def apply : RankStep → JavaType → JavaType
  | wrap count, type => type.arrayOf count
  | unwrap, type => type.component

def applyWithin (limit : Nat) : RankStep → JavaType → Option JavaType
  | wrap count, type => type.arrayOfWithin limit count
  | unwrap, type => type.componentWithin limit

def run (steps : List RankStep) (type : JavaType) : JavaType :=
  steps.foldl (fun type step => step.apply type) type

def runWithin (limit : Nat) (steps : List RankStep) (type : JavaType) : Option JavaType :=
  steps.foldlM (fun type step => step.applyWithin limit type) type

def Fits (limit : Nat) (steps : List RankStep) (type : JavaType) : Prop :=
  ∀ front, front <+: steps → (run front type).rank < limit

instance (limit : Nat) (steps : List RankStep) (type : JavaType) :
    Decidable (Fits limit steps type) :=
  decidable_of_iff (∀ front ∈ steps.inits, (run front type).rank < limit)
    (by simp only [List.mem_inits, Fits])

end RankStep

variable {type : JavaType} {limit : Nat} {step : RankStep} {steps : List RankStep}

theorem rank_arrayOf (type : JavaType) (count : Nat) :
    (type.arrayOf count).rank = type.rank + count := by
  cases type with
  | array element inner => rw [arrayOf_array, rank, rank]
  | void | primitive _ | reference _ =>
      cases count with
      | zero => rfl
      | succ count => rw [arrayOf_succ_of_not_array rfl, rank, rank, Nat.zero_add]

theorem flat_of_not_array (single : type.isArray = false) : type.Flat := by
  cases type with
  | array element rank => contradiction
  | void | primitive _ | reference _ => trivial

theorem flat_arrayOf (flat : type.Flat) (count : Nat) : (type.arrayOf count).Flat := by
  cases type with
  | array element rank =>
      rw [arrayOf_array]
      exact ⟨Nat.add_pos_left flat.1 count, flat.2⟩
  | void | primitive _ | reference _ =>
      cases count with
      | zero => trivial
      | succ count => exact ⟨Nat.succ_pos count, rfl⟩

theorem flat_component (flat : type.Flat) : type.component.Flat := by
  cases type with
  | array element rank => exact flat_arrayOf (flat_of_not_array flat.2) (rank - 1)
  | void | primitive _ | reference _ => trivial

theorem component_arrayOf (flat : type.Flat) (count : Nat) :
    (type.arrayOf (count + 1)).component = type.arrayOf count := by
  cases type with
  | array element rank =>
      obtain ⟨positive, single⟩ := flat
      obtain ⟨rank, rfl⟩ := Nat.exists_eq_add_one_of_ne_zero (Nat.ne_of_gt positive)
      have taken : rank + 1 + (count + 1) - 1 = rank + count + 1 := by omega
      rw [arrayOf_array, component, taken, arrayOf_succ_of_not_array single, arrayOf_array,
        Nat.add_right_comm]
  | void | primitive _ | reference _ => rfl

/-- An array that is flat has a dimension to take off, so a machine takes it off as well. -/
theorem componentWithin_eq_some (flat : type.Flat) (fits : type.component.rank < limit) :
    type.componentWithin limit = some type.component := by
  cases type with
  | array element rank =>
      rw [component, rank_arrayOf] at fits
      rw [componentWithin, Nat.psub_eq_sub flat.1, Option.bind_some, arrayOfWithin, if_pos fits,
        component]
  | void | primitive _ | reference _ => rfl

/-- An array that is not flat may have none. -/
example : componentWithin 8 (array (primitive .int) 0) = none := rfl

theorem flat_apply (flat : type.Flat) (step : RankStep) : (step.apply type).Flat := by
  cases step with
  | wrap count => exact flat_arrayOf flat count
  | unwrap => exact flat_component flat

theorem applyWithin_eq_some (flat : type.Flat) (fits : (step.apply type).rank < limit) :
    step.applyWithin limit type = some (step.apply type) := by
  cases step with
  | wrap count =>
      rw [RankStep.apply, rank_arrayOf] at fits
      exact if_pos fits
  | unwrap => exact componentWithin_eq_some flat fits

theorem flat_run (flat : type.Flat) (steps : List RankStep) : (RankStep.run steps type).Flat := by
  induction steps generalizing type with
  | nil => exact flat
  | cons step steps ih => exact ih (flat_apply flat step)

theorem runWithin_eq_some (flat : type.Flat) (fits : RankStep.Fits limit steps type) :
    RankStep.runWithin limit steps type = some (RankStep.run steps type) := by
  induction steps generalizing type with
  | nil => rfl
  | cons step steps ih =>
      have here : (step.apply type).rank < limit :=
        fits [step] (List.prefix_append [step] steps)
      have later : RankStep.Fits limit steps (step.apply type) := fun front earlier =>
        fits (step :: front) ((List.prefix_cons_inj step).mpr earlier)
      rw [RankStep.runWithin, List.foldlM_cons, applyWithin_eq_some flat here]
      exact ih (flat_apply flat step) later

theorem flat_of_parse {text : String} (read : parse text = .ok type) : type.Flat := by
  obtain ⟨base, rank, element, spelling, rfl⟩ := spelling_of_parse read
  exact flat_arrayOf (flat_of_not_array spelling.named.isArray_eq_false) rank

theorem IsFieldType.flat (spelled : type.IsFieldType) : type.Flat := by
  cases type with
  | array element rank => exact ⟨spelled.1, spelled.2.isArray_eq_false⟩
  | void | primitive _ | reference _ => trivial

theorem IsReturnType.flat (spelled : type.IsReturnType) : type.Flat := by
  rcases spelled with rfl | field
  · trivial
  · exact field.flat

theorem brackets_eq_join (rank : Nat) : brackets rank = String.join (List.replicate rank "[]") := by
  induction rank with
  | zero => rfl
  | succ rank ih => rw [← append_brackets, List.replicate_succ, String.join_cons, ih]

structure KeepsRanks (type : JavaType) : Prop where
  flat : ∀ steps, (RankStep.run steps type).Flat
  computed : ∀ limit steps, RankStep.Fits limit steps type →
    RankStep.runWithin limit steps type = some (RankStep.run steps type)
  adds : ∀ rank more, (type.arrayOf rank).arrayOf more = type.arrayOf (rank + more)
  takesOff : ∀ rank, (type.arrayOf (rank + 1)).component = type.arrayOf rank
  binaryName : ∀ rank,
    (type.arrayOf rank).binaryName = type.binaryName ++ String.join (List.replicate rank "[]")
  sourceName : ∀ rank,
    (type.arrayOf rank).sourceName = type.sourceName ++ String.join (List.replicate rank "[]")

/-- Every type that is read is flat, and the rank of a flat type is never taken below zero. -/
theorem ranks_never_underflow :
    (∀ text type, parse text = .ok type → type.Flat) ∧
      (∀ descriptor parameters returnType,
        ClassFile.methodTypes descriptor = .ok (parameters, returnType) →
          (∀ parameter ∈ parameters, parameter.Flat) ∧ returnType.Flat) ∧
      ∀ type : JavaType, type.Flat → KeepsRanks type := by
  refine ⟨fun text type => flat_of_parse, ?_, ?_⟩
  · intro descriptor parameters returnType read
    obtain ⟨fields, returned, -⟩ := ClassFile.methodTypes_eq_ok_iff.mp read
    exact ⟨fun parameter listed => (fields parameter listed).flat, returned.flat⟩
  · intro type flat
    exact {
      flat := flat_run flat
      computed := fun limit steps => runWithin_eq_some flat
      adds := type.arrayOf_arrayOf
      takesOff := component_arrayOf flat
      binaryName := fun rank => by rw [binaryName_arrayOf, brackets_eq_join]
      sourceName := fun rank => by rw [sourceName_arrayOf, brackets_eq_join] }

/-- A matrix in both spellings, taken apart and put together again in words of 64 bits. -/
theorem ranks_never_underflow_matrix :
    parse "int[][]" = .ok (array (primitive .int) 2) ∧
      ClassFile.methodTypes "([[I)V".toList = .ok ([array (primitive .int) 2], void) ∧
      (array (primitive .int) 2).Flat ∧ void.Flat ∧
      RankStep.Fits (Nat.pow 2 64) [.unwrap, .unwrap, .unwrap, .wrap 2] (array (primitive .int) 2) ∧
      RankStep.runWithin (Nat.pow 2 64) [.unwrap, .unwrap, .unwrap, .wrap 2]
        (array (primitive .int) 2) = some (array (primitive .int) 2) := by
  obtain ⟨ofText, ofDescriptor, laws⟩ := ranks_never_underflow
  have spelled : parse "int[][]" = .ok (array (primitive .int) 2) := by decide +kernel
  have described : ClassFile.methodTypes "([[I)V".toList =
      .ok ([array (primitive .int) 2], void) := by decide +kernel
  have flat : (array (primitive .int) 2).Flat := ofText _ _ spelled
  have fits : RankStep.Fits (Nat.pow 2 64) [.unwrap, .unwrap, .unwrap, .wrap 2]
      (array (primitive .int) 2) := by decide
  exact ⟨spelled, described, flat, (ofDescriptor _ _ _ described).2, fits,
    (laws _ flat).computed _ _ fits⟩

end JavaType

end Stubwright
