import Stubwright.Declaration
import Mathlib.Data.List.Forall2

/-!
What normalizing may change. `Declaration.Completes` says of each part of a declaration what the
language implies for it, flag by flag and member by member, without saying how it gets there. Exactly
one declaration completes another, and a completed one needs nothing more.
-/
namespace Stubwright

namespace Modifiers

variable {before after other : Modifiers} {implied : Modifier → Prop}

/-- No bit is lost, and the new ones are those of the implied flags. -/
def Gain (implied : Modifier → Prop) (before after : Modifiers) : Prop :=
  ∀ place, after.bits.getLsbD place = true ↔
    before.bits.getLsbD place = true ∨ ∃ modifier, implied modifier ∧ modifier.index = place

theorem Gain.unique (gain : Gain implied before after) (gainToo : Gain implied before other) :
    after = other :=
  eq_of_getLsbD fun place => Bool.eq_iff_iff.mpr ((gain place).trans (gainToo place).symm)

theorem gain_add {modifiers : List Modifier} (same : ∀ modifier, implied modifier ↔ modifier ∈ modifiers)
    (before : Modifiers) : Gain implied before (before.add (ofList modifiers)) := by
  intro place
  rw [add, BitVec.getLsbD_or, Bool.or_eq_true, getLsbD_ofList]
  simp only [same]

theorem gain_nothing (none : ∀ modifier, ¬ implied modifier) (before : Modifiers) :
    Gain implied before before := by
  intro place
  simp [none]

end Modifiers

def TypeKind.Implies (kind : TypeKind) : Modifier → Prop
  | .interfaceType | .abstractMember => kind = .interfaceType ∨ kind = .annotationType
  | .annotatingType => kind = .annotationType
  | .enumType => kind = .enumType
  | _ => False

namespace Declaration

variable {written complete other : Declaration}

/-- A method of a completed declaration is the method as written, but for the type that it names and
for the access of members of interfaces. -/
structure CompletesMethod (written : Declaration) (before after : Method) : Prop where
  name : after.name = before.name
  returnType : after.returnType = before.returnType
  parameters : after.parameters = before.parameters
  exceptions : after.exceptions = before.exceptions
  declaringType : after.declaringType = written.name
  modifiers : Modifiers.Gain
    (fun modifier => modifier = .publicAccess ∧
      (written.kind = .interfaceType ∨ written.kind = .annotationType) ∧
      before.isPrivate = false)
    before.modifiers after.modifiers

inductive CompletesConstructors (written : Declaration) : List Constructor → Prop
  | emptied (shared : written.kind = .interfaceType ∨ written.kind = .annotationType) :
      CompletesConstructors written []
  | extended {implicit : Constructor} (kind : written.kind = .classType)
      (undeclared : written.constructors = []) (parameters : implicit.parameters = [])
      (exceptions : implicit.exceptions = [])
      (access : ∀ place, implicit.modifiers.bits.getLsbD place = true ↔
        written.modifiers.bits.getLsbD place = true ∧
          ∃ modifier ∈ Modifier.access, modifier.index = place) :
      CompletesConstructors written [implicit]
  | kept (unshared : ¬ (written.kind = .interfaceType ∨ written.kind = .annotationType))
      (given : ¬ (written.kind = .classType ∧ written.constructors = [])) :
      CompletesConstructors written written.constructors

/-- A declaration with everything written out that another one leaves implicit, and nothing else
changed. -/
structure Completes (written complete : Declaration) : Prop where
  name : complete.name = written.name
  kind : complete.kind = written.kind
  interfaces : complete.interfaces = written.interfaces
  modifiers : Modifiers.Gain written.kind.Implies written.modifiers complete.modifiers
  methods : List.Forall₂ written.CompletesMethod written.methods complete.methods
  constructors : written.CompletesConstructors complete.constructors
  superclass_iff : complete.superclass.isSome ↔
    ((written.kind = .classType ∨ written.kind = .enumType) ∧
        (written.superclass.isSome ∨ written.name ≠ "java.lang.Object")) ∨
      ((written.kind = .primitiveType ∨ written.kind = .arrayType) ∧ written.superclass.isSome)
  superclass : ∀ parent ∈ complete.superclass,
    written.superclass = some parent ∨ written.superclass = none ∧ parent = "java.lang.Object"

theorem isInterface_iff (kind : TypeKind) :
    kind.isInterface = true ↔ kind = .interfaceType ∨ kind = .annotationType := by
  cases kind <;> simp [TypeKind.isInterface]

theorem completesMethod_impliedMethod (written : Declaration) (method : Method) :
    written.CompletesMethod method (written.impliedMethod method) := by
  refine ⟨rfl, rfl, rfl, rfl, rfl, ?_⟩
  rw [impliedMethod]
  dsimp only
  split
  · rename_i shared
    rw [Bool.and_eq_true, Bool.not_eq_true', isInterface_iff] at shared
    exact Modifiers.gain_add (by simp [shared]) _
  · rename_i unshared
    rw [Bool.and_eq_true, Bool.not_eq_true', isInterface_iff] at unshared
    exact Modifiers.gain_nothing (fun modifier gained => unshared gained.2) _

theorem completesConstructors_impliedConstructors (written : Declaration) :
    written.CompletesConstructors written.impliedConstructors := by
  rw [impliedConstructors]
  split
  · exact .emptied (.inl ‹_›)
  · exact .emptied (.inr ‹_›)
  · rename_i kind
    split
    · rename_i undeclared
      refine .extended kind (List.isEmpty_iff.mp undeclared) rfl rfl fun place => ?_
      rw [Modifiers.keep, BitVec.getLsbD_and, Bool.and_eq_true, Modifiers.onConstructors,
        Modifiers.getLsbD_ofList]
    · rename_i declared
      exact .kept (by simp [kind]) fun given => declared (List.isEmpty_iff.mpr given.2)
  · rename_i unshared unsharedToo unclass
    exact .kept (not_or.mpr ⟨unshared, unsharedToo⟩) fun given => unclass given.1

theorem gain_impliedModifiers (written : Declaration) :
    Modifiers.Gain written.kind.Implies written.modifiers written.impliedModifiers := by
  rw [impliedModifiers]
  cases kind : written.kind with
  | interfaceType | annotationType | enumType =>
      refine Modifiers.gain_add (fun modifier => ?_) _
      cases modifier <;> simp [TypeKind.Implies]
  | classType | primitiveType | arrayType =>
      refine Modifiers.gain_nothing (fun modifier => ?_) _
      cases modifier <;> simp [TypeKind.Implies]

theorem isSome_impliedSuperclass (written : Declaration) :
    written.impliedSuperclass.isSome ↔
      ((written.kind = .classType ∨ written.kind = .enumType) ∧
          (written.superclass.isSome ∨ written.name ≠ rootClass)) ∨
        ((written.kind = .primitiveType ∨ written.kind = .arrayType) ∧
          written.superclass.isSome) := by
  rw [impliedSuperclass]
  cases kind : written.kind with
  | classType | enumType =>
      cases declared : written.superclass with
      | some parent => simp
      | none => by_cases root : written.name = rootClass <;> simp [root]
  | _ => simp

theorem mem_impliedSuperclass {parent : String} (extended : parent ∈ written.impliedSuperclass) :
    written.superclass = some parent ∨ written.superclass = none ∧ parent = rootClass := by
  rw [impliedSuperclass] at extended
  cases kind : written.kind with
  | classType | enumType =>
      cases declared : written.superclass with
      | some declaredParent => simpa [kind, declared] using extended
      | none =>
          by_cases root : written.name = rootClass
          · simp [kind, declared, root] at extended
          · simpa [kind, declared, root, eq_comm] using extended
  | interfaceType | annotationType => simp [kind] at extended
  | primitiveType | arrayType => exact .inl (by simpa [kind] using extended)

theorem completes_normalized (written : Declaration) : written.Completes written.normalized where
  name := rfl
  kind := rfl
  interfaces := rfl
  modifiers := gain_impliedModifiers written
  methods := by
    rw [methods_normalized, List.forall₂_map_right_iff, List.forall₂_same]
    exact fun method _ => completesMethod_impliedMethod written method
  constructors := completesConstructors_impliedConstructors written
  superclass_iff := isSome_impliedSuperclass written
  superclass _ := mem_impliedSuperclass

theorem CompletesMethod.unique {before after afterToo : Method}
    (completes : written.CompletesMethod before after)
    (completesToo : written.CompletesMethod before afterToo) : after = afterToo := by
  cases after
  cases afterToo
  rw [Method.mk.injEq]
  exact ⟨completes.name.trans completesToo.name.symm,
    completes.declaringType.trans completesToo.declaringType.symm,
    completes.returnType.trans completesToo.returnType.symm,
    completes.parameters.trans completesToo.parameters.symm,
    completes.exceptions.trans completesToo.exceptions.symm,
    completes.modifiers.unique completesToo.modifiers⟩

theorem CompletesConstructors.unique {constructors constructorsToo : List Constructor}
    (completes : written.CompletesConstructors constructors)
    (completesToo : written.CompletesConstructors constructorsToo) :
    constructors = constructorsToo := by
  cases completes with
  | emptied shared =>
      cases completesToo with
      | emptied => rfl
      | extended kind => simp [kind] at shared
      | kept unshared => exact absurd shared unshared
  | @extended implicit kind undeclared parameters exceptions access =>
      cases completesToo with
      | emptied shared => simp [kind] at shared
      | @extended implicitToo _ _ parametersToo exceptionsToo accessToo =>
          have modifiers : implicit.modifiers = implicitToo.modifiers :=
            Modifiers.eq_of_getLsbD fun place =>
              Bool.eq_iff_iff.mpr ((access place).trans (accessToo place).symm)
          cases implicit
          cases implicitToo
          simp_all
      | kept _ given => exact absurd ⟨kind, undeclared⟩ given
  | kept unshared given =>
      cases completesToo with
      | emptied shared => exact absurd shared unshared
      | extended kind undeclared => exact absurd ⟨kind, undeclared⟩ given
      | kept => rfl

theorem Completes.methods_unique (completes : written.Completes complete)
    (completesToo : written.Completes other) : complete.methods = other.methods := by
  have single : Relator.RightUnique written.CompletesMethod :=
    fun _ _ _ => CompletesMethod.unique
  exact single.forall₂ completes.methods completesToo.methods

theorem Completes.superclass_unique (completes : written.Completes complete)
    (completesToo : written.Completes other) : complete.superclass = other.superclass := by
  have both := completes.superclass_iff.trans completesToo.superclass_iff.symm
  cases extended : complete.superclass with
  | none =>
      rw [extended] at both
      exact (Option.not_isSome_iff_eq_none.mp (both.not.mp (by simp))).symm
  | some parent =>
      rw [extended] at both
      obtain ⟨parentToo, extendedToo⟩ := Option.isSome_iff_exists.mp (both.mp rfl)
      rw [extendedToo]
      -- A declared superclass stays, and otherwise there is only the root.
      rcases completes.superclass parent extended with declared | ⟨undeclared, root⟩ <;>
        rcases completesToo.superclass parentToo extendedToo with
          declaredToo | ⟨undeclaredToo, rootToo⟩ <;>
        simp_all

theorem Completes.unique (completes : written.Completes complete)
    (completesToo : written.Completes other) : complete = other := by
  have superclass := completes.superclass_unique completesToo
  have methods := completes.methods_unique completesToo
  cases complete
  cases other
  rw [Declaration.mk.injEq]
  exact ⟨completes.name.trans completesToo.name.symm, completes.kind.trans completesToo.kind.symm,
    completes.modifiers.unique completesToo.modifiers, superclass,
    completes.interfaces.trans completesToo.interfaces.symm,
    completes.constructors.unique completesToo.constructors, methods⟩

/-- Normalizing again changes nothing, and what it gives is the one declaration that completes the
one it was given. -/
theorem normalized_completes_once (written : Declaration) :
    written.normalized.normalized = written.normalized ∧
      ∀ complete, written.Completes complete ↔ complete = written.normalized := by
  refine ⟨written.normalized_normalized, fun complete => ⟨fun completes => ?_, ?_⟩⟩
  · exact completes.unique written.completes_normalized
  · rintro rfl
    exact written.completes_normalized

end Declaration

end Stubwright
