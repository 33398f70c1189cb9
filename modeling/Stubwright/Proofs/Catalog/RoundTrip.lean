import Stubwright.Catalog.Document
import Stubwright.Proofs.Catalog.Keywords
import Stubwright.Proofs.Catalog.TypeSpelling
import Stubwright.Proofs.Json.Record

namespace Stubwright

open Json

namespace JavaType

theorem ofJson_toJson {type : JavaType} (spelled : type.IsSpelled) :
    ofJson type.toJson = .ok type := by
  have read := parse_binaryName spelled
  refine asParsed_ofString ?_
  rw [read]
  rfl

theorem isSpelled_of_ofJson {json : Json} {type : JavaType} (read : ofJson json = .ok type) :
    type.IsSpelled := by
  obtain ⟨content, parsed⟩ := exists_of_asParsed read
  exact ⟨content, eq_ok_of_toOption parsed⟩

theorem ofJson_list {types : List JavaType} (spelled : ∀ type ∈ types, type.IsSpelled) :
    asList ofJson (.ofList (types.map toJson)) = .ok types :=
  asList_ofList fun type member => ofJson_toJson (spelled type member)

theorem isSpelled_of_list {json : Json} {types : List JavaType}
    (read : asList ofJson json = .ok types) : ∀ type ∈ types, type.IsSpelled := by
  intro type member
  obtain ⟨json, read⟩ := exists_of_asList read type member
  exact isSpelled_of_ofJson read

theorem isPlain_list (types : List JavaType) : (Json.ofList (types.map toJson)).IsPlain := by
  apply isPlain_ofList
  intro json member
  obtain ⟨type, -, rfl⟩ := List.mem_map.mp member
  trivial

end JavaType

theorem Json.asList_strings (texts : List String) :
    asList asString (.ofList (texts.map Json.ofString)) = .ok texts :=
  asList_ofList fun _ _ => rfl

theorem Json.isPlain_strings (texts : List String) :
    (Json.ofList (texts.map .ofString)).IsPlain := by
  apply isPlain_ofList
  intro json member
  obtain ⟨text, -, rfl⟩ := List.mem_map.mp member
  trivial

namespace Modifiers

theorem ofJson_toJson {flags : Modifiers} (named : flags.IsNamed) :
    ofJson flags.toJson = .ok flags := by
  have keywords := ofKeywords_keywords named
  rw [ofJson, toJson, asList_strings, ok_bind, keywords]
  rfl

theorem isNamed_of_ofJson {json : Json} {flags : Modifiers} (read : ofJson json = .ok flags) :
    flags.IsNamed := by
  obtain ⟨keywords, -, read⟩ := ok_of_bind read
  cases parsed : ofKeywords keywords with
  | error _ =>
      rw [parsed] at read
      cases read
  | ok flags' =>
      rw [parsed] at read
      cases read
      exact isNamed_of_ofKeywords parsed

theorem isPlain_toJson (flags : Modifiers) : flags.toJson.IsPlain :=
  isPlain_strings flags.keywords

end Modifiers

namespace Constructor

structure IsWritable (constructor : Constructor) : Prop where
  parameters : ∀ type ∈ constructor.parameters, type.IsSpelled
  exceptions : ∀ type ∈ constructor.exceptions, type.IsSpelled
  modifiers : constructor.modifiers.IsNamed

theorem ofJson_toJson {constructor : Constructor} (writable : constructor.IsWritable) :
    ofJson constructor.toJson = .ok constructor := by
  have parameters := JavaType.ofJson_list writable.parameters
  have exceptions := JavaType.ofJson_list writable.exceptions
  have modifiers := Modifiers.ofJson_toJson writable.modifiers
  have layout : constructor.toJson = .ofMembers (membersOf fields
      [.ofList (constructor.parameters.map JavaType.toJson),
        .ofList (constructor.exceptions.map JavaType.toJson), constructor.modifiers.toJson]) := rfl
  rw [ofJson, layout, asRecord_ofMembers _ (by decide) rfl]
  simp only [fields, readFields, Field.optional, parameters, exceptions, modifiers]
  rfl

theorem isWritable_of_ofJson {json : Json} {constructor : Constructor}
    (read : ofJson json = .ok constructor) : constructor.IsWritable := by
  refine asRecord_keeps ?_ ?_ read
  · simp only [fields, List.forall_mem_cons]
    refine ⟨?_, ?_, ?_, by simp⟩
    · exact Field.keeps_of_set _ _ fun _ _ _ read start =>
        { start with parameters := JavaType.isSpelled_of_list read }
    · exact Field.keeps_of_set _ _ fun _ _ _ read start =>
        { start with exceptions := JavaType.isSpelled_of_list read }
    · exact Field.keeps_of_set _ _ fun _ _ _ read start =>
        { start with modifiers := Modifiers.isNamed_of_ofJson read }
  · exact ⟨by simp, by simp, Modifiers.isNamed_empty⟩

theorem isPlain_toJson (constructor : Constructor) : constructor.toJson.IsPlain := by
  apply isPlain_ofMembers
  simp only [List.forall_mem_cons]
  exact ⟨JavaType.isPlain_list _, JavaType.isPlain_list _, Modifiers.isPlain_toJson _, by simp⟩

end Constructor

namespace Method

structure IsWritable (method : Method) : Prop where
  returnType : method.returnType.IsSpelled
  parameters : ∀ type ∈ method.parameters, type.IsSpelled
  exceptions : ∀ type ∈ method.exceptions, type.IsSpelled
  modifiers : method.modifiers.IsNamed

theorem ofJson_toJson {method : Method} (writable : method.IsWritable) :
    ofJson method.toJson = .ok method := by
  have returnType := JavaType.ofJson_toJson writable.returnType
  have parameters := JavaType.ofJson_list writable.parameters
  have exceptions := JavaType.ofJson_list writable.exceptions
  have modifiers := Modifiers.ofJson_toJson writable.modifiers
  have layout : method.toJson = .ofMembers (membersOf fields
      [.ofString method.name, .ofString method.declaringType, method.returnType.toJson,
        .ofList (method.parameters.map JavaType.toJson),
        .ofList (method.exceptions.map JavaType.toJson), method.modifiers.toJson]) := rfl
  rw [ofJson, layout, asRecord_ofMembers _ (by decide) rfl]
  simp only [fields, readFields, Field.needed, Field.optional, returnType, parameters, exceptions,
    modifiers]
  rfl

theorem isWritable_of_ofJson {json : Json} {method : Method} (read : ofJson json = .ok method) :
    method.IsWritable := by
  refine asRecord_keeps ?_ ?_ read
  · simp only [fields, List.forall_mem_cons]
    refine ⟨?_, ?_, ?_, ?_, ?_, ?_, by simp⟩
    · exact Field.keeps_of_set _ _ fun _ _ _ _ start => { start with }
    · exact Field.keeps_of_set _ _ fun _ _ _ _ start => { start with }
    · exact Field.keeps_of_set _ _ fun _ _ _ read start =>
        { start with returnType := JavaType.isSpelled_of_ofJson read }
    · exact Field.keeps_of_set _ _ fun _ _ _ read start =>
        { start with parameters := JavaType.isSpelled_of_list read }
    · exact Field.keeps_of_set _ _ fun _ _ _ read start =>
        { start with exceptions := JavaType.isSpelled_of_list read }
    · exact Field.keeps_of_set _ _ fun _ _ _ read start =>
        { start with modifiers := Modifiers.isNamed_of_ofJson read }
  · exact ⟨JavaType.isSpelled_void, by simp, by simp, Modifiers.isNamed_empty⟩

theorem isPlain_toJson (method : Method) : method.toJson.IsPlain := by
  apply isPlain_ofMembers
  simp only [List.forall_mem_cons]
  exact ⟨trivial, trivial, trivial, JavaType.isPlain_list _, JavaType.isPlain_list _,
    Modifiers.isPlain_toJson _, by simp⟩

end Method

namespace Declaration

structure IsWritable (declaration : Declaration) : Prop where
  modifiers : declaration.modifiers.IsNamed
  constructors : ∀ constructor ∈ declaration.constructors, constructor.IsWritable
  methods : ∀ method ∈ declaration.methods, method.IsWritable

theorem asOption_ofString (superclass : Option String) :
    asOption asString ((superclass.map Json.ofString).getD .null) = .ok superclass := by
  cases superclass <;> rfl

theorem ofJson_toJson {declaration : Declaration} (writable : declaration.IsWritable) :
    ofJson declaration.toJson = .ok declaration := by
  have kind : asName TypeKind.ofKeyword? (.ofString declaration.kind.keyword) =
      .ok declaration.kind := asParsed_ofString (TypeKind.ofKeyword?_keyword declaration.kind)
  have modifiers := Modifiers.ofJson_toJson writable.modifiers
  have superclass := asOption_ofString declaration.superclass
  have interfaces := asList_strings declaration.interfaces
  have constructors := asList_ofList fun constructor member =>
    Constructor.ofJson_toJson (writable.constructors constructor member)
  have methods := asList_ofList fun method member =>
    Method.ofJson_toJson (writable.methods method member)
  have layout : declaration.toJson = .ofMembers (membersOf fields
      [.ofString declaration.name, .ofString declaration.kind.keyword, declaration.modifiers.toJson,
        (declaration.superclass.map Json.ofString).getD .null,
        .ofList (declaration.interfaces.map .ofString),
        .ofList (declaration.constructors.map Constructor.toJson),
        .ofList (declaration.methods.map Method.toJson)]) := rfl
  rw [ofJson, layout, asRecord_ofMembers _ (by decide) rfl]
  simp only [fields, readFields, Field.needed, Field.optional, kind, modifiers, superclass,
    interfaces, constructors, methods]
  rfl

theorem isWritable_of_ofJson {json : Json} {declaration : Declaration}
    (read : ofJson json = .ok declaration) : declaration.IsWritable := by
  refine asRecord_keeps ?_ ?_ read
  · simp only [fields, List.forall_mem_cons]
    refine ⟨?_, ?_, ?_, ?_, ?_, ?_, ?_, by simp⟩
    · exact Field.keeps_of_set _ _ fun _ _ _ _ start => { start with }
    · exact Field.keeps_of_set _ _ fun _ _ _ _ start => { start with }
    · exact Field.keeps_of_set _ _ fun _ _ _ read start =>
        { start with modifiers := Modifiers.isNamed_of_ofJson read }
    · exact Field.keeps_of_set _ _ fun _ _ _ _ start => { start with }
    · exact Field.keeps_of_set _ _ fun _ _ _ _ start => { start with }
    · refine Field.keeps_of_set _ _ fun _ _ _ read start => { start with constructors := ?_ }
      intro constructor member
      obtain ⟨json, read⟩ := exists_of_asList read constructor member
      exact Constructor.isWritable_of_ofJson read
    · refine Field.keeps_of_set _ _ fun _ _ _ read start => { start with methods := ?_ }
      intro method member
      obtain ⟨json, read⟩ := exists_of_asList read method member
      exact Method.isWritable_of_ofJson read
  · exact ⟨Modifiers.isNamed_empty, by simp, by simp⟩

theorem isPlain_toJson (declaration : Declaration) : declaration.toJson.IsPlain := by
  have superclass : ((declaration.superclass.map Json.ofString).getD .null).IsPlain := by
    cases declaration.superclass <;> trivial
  have constructors : (Json.ofList (declaration.constructors.map Constructor.toJson)).IsPlain := by
    apply isPlain_ofList
    intro json member
    obtain ⟨constructor, -, rfl⟩ := List.mem_map.mp member
    exact constructor.isPlain_toJson
  have methods : (Json.ofList (declaration.methods.map Method.toJson)).IsPlain := by
    apply isPlain_ofList
    intro json member
    obtain ⟨method, -, rfl⟩ := List.mem_map.mp member
    exact method.isPlain_toJson
  apply isPlain_ofMembers
  simp only [List.forall_mem_cons]
  exact ⟨trivial, trivial, Modifiers.isPlain_toJson _, superclass, isPlain_strings _, constructors,
    methods, by simp⟩

theorem IsWritable.impliedModifiers {declaration : Declaration}
    (writable : declaration.IsWritable) : declaration.impliedModifiers.IsNamed := by
  have named := writable.modifiers
  unfold Declaration.impliedModifiers
  cases declaration.kind with
  | interfaceType | annotationType | enumType => exact named.add (Modifiers.isNamed_ofList _)
  | classType | primitiveType | arrayType => exact named

theorem IsWritable.impliedConstructors {declaration : Declaration}
    (writable : declaration.IsWritable) :
    ∀ constructor ∈ declaration.impliedConstructors, constructor.IsWritable := by
  have written := writable.constructors
  unfold Declaration.impliedConstructors
  cases declaration.kind with
  | interfaceType | annotationType => simp
  | enumType | primitiveType | arrayType => exact written
  | classType =>
      intro constructor member
      by_cases none : declaration.constructors.isEmpty
      · simp only [none, if_true, List.mem_singleton] at member
        subst member
        exact ⟨by simp, by simp, writable.modifiers.keep _⟩
      · simp only [none] at member
        exact written constructor member

theorem IsWritable.impliedMethod {method : Method} (writable : method.IsWritable)
    (declaration : Declaration) : (declaration.impliedMethod method).IsWritable := by
  have modifiers : (declaration.impliedMethod method).modifiers.IsNamed := by
    unfold Declaration.impliedMethod
    split
    · exact writable.modifiers.add (Modifiers.isNamed_ofList _)
    · exact writable.modifiers
  exact ⟨writable.returnType, writable.parameters, writable.exceptions, modifiers⟩

theorem IsWritable.normalized {declaration : Declaration} (writable : declaration.IsWritable) :
    declaration.normalized.IsWritable := by
  refine ⟨writable.impliedModifiers, writable.impliedConstructors, fun method member => ?_⟩
  obtain ⟨written, inDeclaration, rfl⟩ := List.mem_map.mp member
  exact impliedMethod (writable.methods written inDeclaration) declaration

end Declaration

namespace Catalog

theorem declarationsOfJson_documentOf {declarations : List Declaration}
    (writable : ∀ declaration ∈ declarations, declaration.IsWritable) :
    declarationsOfJson (documentOf declarations) = .ok declarations := by
  have types := asList_ofList fun declaration member =>
    Declaration.ofJson_toJson (writable declaration member)
  have layout : documentOf declarations = .ofMembers (membersOf fields
      [.ofList (declarations.map Declaration.toJson)]) := rfl
  rw [declarationsOfJson, layout, asRecord_ofMembers _ (by decide) rfl]
  simp only [fields, readFields, Field.optional, types]
  rfl

theorem isWritable_of_declarationsOfJson {json : Json} {declarations : List Declaration}
    (read : declarationsOfJson json = .ok declarations) :
    ∀ declaration ∈ declarations, declaration.IsWritable := by
  have keeps : ∀ field ∈ fields,
      field.Keeps fun declarations => ∀ declaration ∈ declarations, declaration.IsWritable := by
    simp only [fields, List.forall_mem_cons]
    refine ⟨Field.keeps_of_set _ _ fun _ _ _ read _ declaration member => ?_, by simp⟩
    obtain ⟨json, read⟩ := exists_of_asList read declaration member
    exact Declaration.isWritable_of_ofJson read
  exact asRecord_keeps keeps (by simp) read

theorem isPlain_documentOf (declarations : List Declaration) :
    (documentOf declarations).IsPlain := by
  have types : (Json.ofList (declarations.map Declaration.toJson)).IsPlain := by
    apply isPlain_ofList
    intro json member
    obtain ⟨declaration, -, rfl⟩ := List.mem_map.mp member
    exact declaration.isPlain_toJson
  apply isPlain_ofMembers
  simpa using types

def reread (declarations : List Declaration) : Except Json.Fault (List Declaration) :=
  Json.parse declarationsOfJson (documentOf declarations).toText

theorem reread_of_isWritable {declarations : List Declaration}
    (writable : ∀ declaration ∈ declarations, declaration.IsWritable) :
    reread declarations = .ok declarations := by
  rw [reread, parse_toText (isPlain_documentOf declarations)]
  exact declarationsOfJson_documentOf writable

theorem isWritable_of_parse {source : String} {declarations : List Declaration}
    (accepted : Json.parse declarationsOfJson source = .ok declarations) :
    ∀ declaration ∈ declarations, declaration.IsWritable := by
  rw [Json.parse] at accepted
  cases read : declarationsOfJson (ofText source.toList).1 with
  | error _ => simp [read] at accepted
  | ok declarations' =>
      simp only [read] at accepted
      split at accepted
      · cases accepted
      · cases accepted
        exact isWritable_of_declarationsOfJson read

/-- Declarations that can be written, or that were read from any text, survive being written and
read again, and so does what they become when they are normalized. -/
theorem reread_document {declarations : List Declaration}
    (origin : (∀ declaration ∈ declarations, declaration.IsWritable) ∨
      ∃ source, Json.parse declarationsOfJson source = .ok declarations) :
    reread declarations = .ok declarations ∧
      reread (declarations.map Declaration.normalized) =
        .ok (declarations.map Declaration.normalized) := by
  have writable : ∀ declaration ∈ declarations, declaration.IsWritable := by
    rcases origin with writable | ⟨source, accepted⟩
    · exact writable
    · exact isWritable_of_parse accepted
  refine ⟨reread_of_isWritable writable, reread_of_isWritable fun declaration member => ?_⟩
  obtain ⟨written, inDocument, rfl⟩ := List.mem_map.mp member
  exact (writable written inDocument).normalized

/-- An interface given as an array, with a method given as an object that leaves out fields, and
blanks around the keywords and before the array suffix. -/
def looseDocument : String :=
  "\x7b\"types\": [[\"a.Base\", \"interface\", [\" public \"], \"a.Top\", [], [],
    [\x7b\"modifiers\": [\"abstract\\t\"], \"parameters\": [\"int []\"],
      \"name\": \"run\"\x7d]]]\x7d"

def looseMethod : Method :=
  ⟨"run", "", .void, [.array (.primitive .int) 1], [], .ofList [.abstractMember]⟩

def looseDeclarations : List Declaration :=
  [⟨"a.Base", .interfaceType, .ofList [.publicAccess], some "a.Top", [], [], [looseMethod]⟩]

theorem reread_looseDocument :
    Json.parse declarationsOfJson looseDocument = .ok looseDeclarations ∧
      reread looseDeclarations = .ok looseDeclarations ∧
        reread (looseDeclarations.map Declaration.normalized) =
          .ok (looseDeclarations.map Declaration.normalized) := by
  have accepted : Json.parse declarationsOfJson looseDocument = .ok looseDeclarations :=
    eq_ok_of_toOption (by decide +kernel)
  exact ⟨accepted, reread_document (.inr ⟨looseDocument, accepted⟩)⟩

end Catalog

end Stubwright
