import Stubwright.Member

/-!
Declarations of types, as class files and catalogs give them. `Declaration.normalized` adds what the
Java language leaves implicit, so that declarations from both look the same: the flags and the
public members of interfaces, the default constructor and the root class.
-/
namespace Stubwright

inductive TypeKind where
  | classType | interfaceType | enumType | annotationType | primitiveType | arrayType
deriving DecidableEq, Repr, Inhabited

namespace TypeKind

def all : List TypeKind :=
  [classType, interfaceType, enumType, annotationType, primitiveType, arrayType]

def keyword : TypeKind → String
  | classType => "class"
  | interfaceType => "interface"
  | enumType => "enum"
  | annotationType => "annotation"
  | primitiveType => "primitive"
  | arrayType => "array"

def ofKeyword? (keyword : String) : Option TypeKind :=
  all.find? (·.keyword == keyword)

/-- Annotations are interfaces as well. -/
def isInterface : TypeKind → Bool
  | interfaceType | annotationType => true
  | _ => false

theorem ofKeyword?_keyword (kind : TypeKind) : ofKeyword? kind.keyword = some kind := by
  cases kind <;> rfl

end TypeKind

def rootClass : String := "java.lang.Object"

/-- One type with its own members. Supertypes are given by binary name. -/
structure Declaration where
  name : String
  kind : TypeKind
  modifiers : Modifiers
  superclass : Option String
  interfaces : List String
  constructors : List Constructor
  methods : List Method
deriving DecidableEq, Repr

namespace Declaration

def impliedModifiers (declaration : Declaration) : Modifiers :=
  let flags := declaration.modifiers
  match declaration.kind with
  | .interfaceType => flags.add (.ofList [.interfaceType, .abstractMember])
  | .annotationType => flags.add (.ofList [.interfaceType, .abstractMember, .annotatingType])
  | .enumType => flags.add (.ofList [.enumType])
  | _ => flags

/-- Interfaces have no class chain; every class and enum but the root has a superclass. -/
def impliedSuperclass (declaration : Declaration) : Option String :=
  match declaration.kind with
  | .interfaceType | .annotationType => none
  | .classType | .enumType =>
      match declaration.superclass with
      | some superclass => some superclass
      | none => if declaration.name = rootClass then none else some rootClass
  | _ => declaration.superclass

/-- A class without constructors has one without parameters, with the access of the class. -/
def impliedConstructors (declaration : Declaration) : List Constructor :=
  match declaration.kind with
  | .interfaceType | .annotationType => []
  | .classType =>
      if declaration.constructors.isEmpty then
        [⟨[], [], declaration.modifiers.keep .onConstructors⟩]
      else declaration.constructors
  | _ => declaration.constructors

/-- Members of interfaces are public unless they are private. -/
def impliedMethod (declaration : Declaration) (method : Method) : Method :=
  { method with
    declaringType := declaration.name
    modifiers :=
      if declaration.kind.isInterface && !method.isPrivate then
        method.modifiers.add (.ofList [.publicAccess])
      else method.modifiers }

/-- The declaration with everything written out that the language leaves implicit. -/
def normalized (declaration : Declaration) : Declaration :=
  { declaration with
    modifiers := declaration.impliedModifiers
    superclass := declaration.impliedSuperclass
    constructors := declaration.impliedConstructors
    methods := declaration.methods.map declaration.impliedMethod }

@[simp]
theorem name_normalized (declaration : Declaration) :
    declaration.normalized.name = declaration.name := rfl

@[simp]
theorem kind_normalized (declaration : Declaration) :
    declaration.normalized.kind = declaration.kind := rfl

@[simp]
theorem interfaces_normalized (declaration : Declaration) :
    declaration.normalized.interfaces = declaration.interfaces := rfl

theorem methods_normalized (declaration : Declaration) :
    declaration.normalized.methods = declaration.methods.map declaration.impliedMethod := rfl

theorem impliedModifiers_normalized (declaration : Declaration) :
    declaration.normalized.impliedModifiers = declaration.impliedModifiers := by
  cases kind : declaration.kind <;> simp [impliedModifiers, normalized, kind]

theorem impliedSuperclass_normalized (declaration : Declaration) :
    declaration.normalized.impliedSuperclass = declaration.impliedSuperclass := by
  cases kind : declaration.kind with
  | classType | enumType =>
      cases declared : declaration.superclass with
      | some superclass => simp [impliedSuperclass, normalized, kind, declared]
      | none =>
          by_cases root : declaration.name = rootClass <;>
            simp [impliedSuperclass, normalized, kind, declared, root]
  | _ => simp [impliedSuperclass, normalized, kind]

theorem impliedConstructors_normalized (declaration : Declaration) :
    declaration.normalized.impliedConstructors = declaration.impliedConstructors := by
  cases kind : declaration.kind with
  | classType =>
      cases declared : declaration.constructors <;>
        simp [impliedConstructors, normalized, kind, declared]
  | _ => simp [impliedConstructors, normalized, kind]

/-- Making a method public does not make it private, so the rule applies to its own result. -/
theorem impliedMethod_impliedMethod (declaration : Declaration) (method : Method) :
    declaration.normalized.impliedMethod (declaration.impliedMethod method) =
      declaration.impliedMethod method := by
  cases shared : declaration.kind.isInterface <;> cases hidden : method.modifiers.has .privateAccess <;>
    simp [impliedMethod, shared, Method.isPrivate, hidden]

theorem normalized_normalized (declaration : Declaration) :
    declaration.normalized.normalized = declaration.normalized := by
  have methods : declaration.normalized.methods.map declaration.normalized.impliedMethod =
      declaration.normalized.methods := by
    simp only [methods_normalized, List.map_map]
    congr 1
    funext method
    exact declaration.impliedMethod_impliedMethod method
  rw [normalized, impliedModifiers_normalized, impliedSuperclass_normalized,
    impliedConstructors_normalized, methods]
  rfl

/-- A normalized declaration names itself in each of its methods. -/
theorem declaringType_of_mem {declaration : Declaration} {method : Method}
    (normal : declaration.normalized = declaration) (member : method ∈ declaration.methods) :
    method.declaringType = declaration.name := by
  rw [← normal, methods_normalized] at member
  obtain ⟨written, -, rfl⟩ := List.mem_map.mp member
  rfl

end Declaration

end Stubwright
