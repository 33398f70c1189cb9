import Stubwright.ClassFile.Descriptor
import Stubwright.Declaration
import Stubwright.Proofs.ClassFile.Descriptor
import Stubwright.Proofs.ClassFile.Reading
import Stubwright.Text.ModifiedUtf8
import Stubwright.Text.Utf16

/-!
Class files as the tools that write them see them. An `Image` holds what the format has room for,
`Image.encode` gives its bytes, and `Image.declared` is the declaration that it stands for, worked
out from the image without a look at the bytes. Texts are sequences of code units, so a surrogate
may stand in them without its partner, as compilers write it for such a literal.
-/
namespace Stubwright.ClassFile

open Text

/-- The constants whose content no declaration needs. -/
inductive Filler where
  | integer | float | long | double | string | fieldReference | methodReference
  | interfaceMethodReference | nameAndType | methodHandle | methodType | dynamicValue
  | dynamicCall | moduleName | packageName
deriving DecidableEq, Repr

namespace Filler

def tag : Filler → UInt8
  | integer => 3
  | float => 4
  | long => 5
  | double => 6
  | string => 8
  | fieldReference => 9
  | methodReference => 10
  | interfaceMethodReference => 11
  | nameAndType => 12
  | methodHandle => 15
  | methodType => 16
  | dynamicValue => 17
  | dynamicCall => 18
  | moduleName => 19
  | packageName => 20

def width : Filler → Nat
  | long | double => 8
  | string | methodType | moduleName | packageName => 2
  | methodHandle => 3
  | _ => 4

def slots : Filler → Nat
  | long | double => 2
  | _ => 1

end Filler

inductive Entry where
  | text (units : List UInt16)
  | classReference (nameIndex : UInt16)
  | filler (kind : Filler) (payload : Vector UInt8 kind.width)

namespace Entry

def slots : Entry → Nat
  | filler kind _ => kind.slots
  | _ => 1

def encode : Entry → List UInt8
  | text units => 1 :: sized 2 (ModifiedUtf8.encode units)
  | classReference nameIndex => 7 :: bigEndian 2 nameIndex.toNat
  | filler kind payload => kind.tag :: payload.toList

def Fits : Entry → Prop
  | text units => (ModifiedUtf8.encode units).length < 65536
  | _ => True

instance : DecidablePred Fits
  | text units => inferInstanceAs (Decidable ((ModifiedUtf8.encode units).length < 65536))
  | classReference _ | filler _ _ => inferInstanceAs (Decidable True)

def IsPaired : Entry → Prop
  | text units => Utf16.IsPaired units
  | _ => True

instance : DecidablePred IsPaired
  | text units => inferInstanceAs (Decidable (Utf16.IsPaired units))
  | classReference _ | filler _ _ => inferInstanceAs (Decidable True)

/-- The entry of a text that is made of characters. -/
def ofString (value : String) : Entry :=
  text (Utf16.encode value.toList)

end Entry

def slotCount : List Entry → Nat
  | [] => 0
  | entry :: others => entry.slots + slotCount others

/-- The constants with their number in front, which counts the missing index zero. -/
def encodePool (entries : List Entry) : List UInt8 :=
  bigEndian 2 (slotCount entries + 1) ++ entries.flatMap Entry.encode

def entryFrom? : List Entry → Nat → Option Entry
  | [], _ => none
  | entry :: _, 0 => some entry
  | entry :: rest, offset + 1 =>
      if offset + 1 < entry.slots then none else entryFrom? rest (offset + 1 - entry.slots)

/-- The entry at an index. There is none at zero and at the second index of a long or a double. -/
def entryAt? (entries : List Entry) (index : UInt16) : Option Entry :=
  match index.toNat with
  | 0 => none
  | offset + 1 => entryFrom? entries offset

/-- The text at an index, with U+FFFD in the place of each surrogate without its partner. -/
def textAt? (entries : List Entry) (index : UInt16) : Option String :=
  match entryAt? entries index with
  | some (.text units) => some (String.ofList (Utf16.text units))
  | _ => none

def classAt? (entries : List Entry) (index : UInt16) : Option String :=
  match entryAt? entries index with
  | some (.classReference nameIndex) => textAt? entries nameIndex
  | _ => none

/-- An index into the constants, with the text or the class name that is found there. -/
structure Reference where
  index : UInt16
  text : String

namespace Reference

def encode (reference : Reference) : List UInt8 :=
  bigEndian 2 reference.index.toNat

def IsText (entries : List Entry) (reference : Reference) : Prop :=
  textAt? entries reference.index = some reference.text

def IsClass (entries : List Entry) (reference : Reference) : Prop :=
  classAt? entries reference.index = some reference.text

instance (entries : List Entry) : DecidablePred (IsText entries) := fun reference =>
  inferInstanceAs (Decidable (textAt? entries reference.index = some reference.text))

instance (entries : List Entry) : DecidablePred (IsClass entries) := fun reference =>
  inferInstanceAs (Decidable (classAt? entries reference.index = some reference.text))

/-- Class files separate the packages of a name by slashes. -/
def binaryName (reference : Reference) : String :=
  swapped '/' '.' reference.text

end Reference

/-- Zero where there is no class to refer to. -/
def indexOf : Option Reference → UInt16
  | none => 0
  | some reference => reference.index

def encodeOptional (reference : Option Reference) : List UInt8 :=
  bigEndian 2 (indexOf reference).toNat

def encodeAttribute (nameIndex : UInt16) (body : List UInt8) : List UInt8 :=
  bigEndian 2 nameIndex.toNat ++ sized 4 body

def encodeMemberHead (flags nameIndex descriptorIndex : UInt16) (count : Nat) : List UInt8 :=
  bigEndian 2 flags.toNat ++
    (bigEndian 2 nameIndex.toNat ++ (bigEndian 2 descriptorIndex.toNat ++ bigEndian 2 count))

/-- An attribute that the place it stands in gives no meaning to. -/
structure OtherAttribute where
  name : Reference
  body : List UInt8

structure FieldImage where
  flags : UInt16
  nameIndex : UInt16
  descriptorIndex : UInt16
  attributes : List (UInt16 × List UInt8)

namespace FieldImage

def encode (field : FieldImage) : List UInt8 :=
  encodeMemberHead field.flags field.nameIndex field.descriptorIndex field.attributes.length ++
    field.attributes.flatMap fun item => encodeAttribute item.1 item.2

def WellFormed (field : FieldImage) : Prop :=
  field.attributes.length < 65536 ∧ ∀ item ∈ field.attributes, item.2.length < 4294967296

instance : DecidablePred WellFormed := fun field =>
  inferInstanceAs (Decidable (field.attributes.length < 65536 ∧
    ∀ item ∈ field.attributes, item.2.length < 4294967296))

end FieldImage

inductive MethodAttribute where
  | exceptions (nameIndex : UInt16) (types : List Reference)
  | other (item : OtherAttribute)

namespace MethodAttribute

def encode : MethodAttribute → List UInt8
  | exceptions nameIndex types => encodeAttribute nameIndex (counted Reference.encode types)
  | other item => encodeAttribute item.name.index item.body

def WellFormed (entries : List Entry) : MethodAttribute → Prop
  | exceptions nameIndex types =>
      textAt? entries nameIndex = some "Exceptions" ∧ types.length < 65536 ∧
        ∀ type ∈ types, type.IsClass entries
  | other item =>
      item.name.IsText entries ∧ item.name.text ≠ "Exceptions" ∧
        item.body.length < 4294967296

instance (entries : List Entry) : DecidablePred (WellFormed entries)
  | exceptions nameIndex types =>
      inferInstanceAs (Decidable (textAt? entries nameIndex = some "Exceptions" ∧
        types.length < 65536 ∧ ∀ type ∈ types, type.IsClass entries))
  | other item =>
      inferInstanceAs (Decidable (item.name.IsText entries ∧
        item.name.text ≠ "Exceptions" ∧ item.body.length < 4294967296))

def exceptionTypes : MethodAttribute → List JavaType
  | exceptions _ types => types.map fun type => .reference type.binaryName
  | other _ => []

end MethodAttribute

def isSet (flags : UInt16) (modifier : Modifier) : Bool :=
  flags.toNat.testBit modifier.index

def flagsOf (flags : UInt16) : Modifiers :=
  ⟨flags.toBitVec.setWidth 32⟩

structure MethodImage where
  flags : UInt16
  name : Reference
  descriptorIndex : UInt16
  parameters : List JavaType
  returnType : JavaType
  attributes : List MethodAttribute

namespace MethodImage

def encode (method : MethodImage) : List UInt8 :=
  encodeMemberHead method.flags method.name.index method.descriptorIndex method.attributes.length ++
    method.attributes.flatMap MethodAttribute.encode

def WellFormed (entries : List Entry) (method : MethodImage) : Prop :=
  method.name.IsText entries ∧
    textAt? entries method.descriptorIndex =
      some (String.ofList (methodDescriptor method.parameters method.returnType)) ∧
    (∀ type ∈ method.parameters, type.IsFieldType) ∧ method.returnType.IsReturnType ∧
    method.attributes.length < 65536 ∧
    ∀ item ∈ method.attributes, item.WellFormed entries

instance (entries : List Entry) : DecidablePred (WellFormed entries) := fun method =>
  inferInstanceAs (Decidable (method.name.IsText entries ∧
    textAt? entries method.descriptorIndex =
      some (String.ofList (methodDescriptor method.parameters method.returnType)) ∧
    (∀ type ∈ method.parameters, type.IsFieldType) ∧ method.returnType.IsReturnType ∧
    method.attributes.length < 65536 ∧
    ∀ item ∈ method.attributes, item.WellFormed entries))

/-- A method that a compiler added, unless it bridges to another one. -/
def isHidden (method : MethodImage) : Bool :=
  isSet method.flags .syntheticMember && !isSet method.flags .bridgeMethod

def exceptions (method : MethodImage) : List JavaType :=
  method.attributes.flatMap MethodAttribute.exceptionTypes

def constructor? (method : MethodImage) : Option Constructor :=
  if !method.isHidden && method.name.text == "<init>" then
    some
      { parameters := method.parameters
        exceptions := method.exceptions
        modifiers := flagsOf method.flags }
  else none

def method? (owner : String) (method : MethodImage) : Option Method :=
  if !method.isHidden && method.name.text != "<init>" && method.name.text != "<clinit>" then
    some
      { name := method.name.text
        declaringType := owner
        returnType := method.returnType
        parameters := method.parameters
        exceptions := method.exceptions
        modifiers := flagsOf method.flags }
  else none

end MethodImage

structure NestedImage where
  inner : Option Reference
  outerIndex : UInt16
  nameIndex : UInt16
  flags : UInt16

def NestedImage.encode (nested : NestedImage) : List UInt8 :=
  encodeOptional nested.inner ++ bigEndian 2 nested.outerIndex.toNat ++
    bigEndian 2 nested.nameIndex.toNat ++ bigEndian 2 nested.flags.toNat

def nestedFlags? (this : String) (table : List NestedImage) : Option UInt16 :=
  (table.find? fun nested => nested.inner.any (·.text == this)).map (·.flags)

inductive TypeAttribute where
  | permittedSubclasses (nameIndex : UInt16) (body : List UInt8)
  | innerClasses (nameIndex : UInt16) (table : List NestedImage)
  | other (item : OtherAttribute)

namespace TypeAttribute

def encode : TypeAttribute → List UInt8
  | permittedSubclasses nameIndex body => encodeAttribute nameIndex body
  | innerClasses nameIndex table => encodeAttribute nameIndex (counted NestedImage.encode table)
  | other item => encodeAttribute item.name.index item.body

def WellFormed (entries : List Entry) : TypeAttribute → Prop
  | permittedSubclasses nameIndex body =>
      textAt? entries nameIndex = some "PermittedSubclasses" ∧ body.length < 4294967296
  | innerClasses nameIndex table =>
      textAt? entries nameIndex = some "InnerClasses" ∧ table.length < 65536 ∧
        ∀ nested ∈ table, ∀ inner ∈ nested.inner, inner.IsClass entries
  | other item =>
      item.name.IsText entries ∧ item.name.text ≠ "PermittedSubclasses" ∧
        item.name.text ≠ "InnerClasses" ∧ item.body.length < 4294967296

instance (entries : List Entry) : DecidablePred (WellFormed entries)
  | permittedSubclasses nameIndex body =>
      inferInstanceAs (Decidable (textAt? entries nameIndex = some "PermittedSubclasses" ∧
        body.length < 4294967296))
  | innerClasses nameIndex table =>
      inferInstanceAs (Decidable (textAt? entries nameIndex = some "InnerClasses" ∧
        table.length < 65536 ∧ ∀ nested ∈ table, ∀ inner ∈ nested.inner, inner.IsClass entries))
  | other item =>
      inferInstanceAs (Decidable (item.name.IsText entries ∧
        item.name.text ≠ "PermittedSubclasses" ∧ item.name.text ≠ "InnerClasses" ∧
        item.body.length < 4294967296))

def isPermittedSubclasses : TypeAttribute → Bool
  | permittedSubclasses _ _ => true
  | _ => false

def ownFlags? (this : String) : TypeAttribute → Option UInt16
  | innerClasses _ table => nestedFlags? this table
  | _ => none

end TypeAttribute

structure Image where
  minorVersion : UInt16
  majorVersion : UInt16
  entries : List Entry
  flags : UInt16
  this : Reference
  superclass : Option Reference
  interfaces : List Reference
  fields : List FieldImage
  methods : List MethodImage
  attributes : List TypeAttribute

namespace Image

def encode (image : Image) : List UInt8 :=
  bigEndian 4 0xcafebabe ++ bigEndian 2 image.minorVersion.toNat ++
    bigEndian 2 image.majorVersion.toNat ++ encodePool image.entries ++
    bigEndian 2 image.flags.toNat ++ image.this.encode ++ encodeOptional image.superclass ++
    counted Reference.encode image.interfaces ++ counted FieldImage.encode image.fields ++
    counted MethodImage.encode image.methods ++ counted TypeAttribute.encode image.attributes

/-- Every count and length fits its field, and every index leads to what its place asks for. -/
structure WellFormed (image : Image) : Prop where
  slots_fit : slotCount image.entries + 1 < 65536
  texts_fit : ∀ entry ∈ image.entries, entry.Fits
  this_named : image.this.IsClass image.entries
  superclass_named : ∀ superclass ∈ image.superclass, superclass.IsClass image.entries
  interfaces_fit : image.interfaces.length < 65536
  interfaces_named : ∀ interface ∈ image.interfaces, interface.IsClass image.entries
  fields_fit : image.fields.length < 65536
  fields_formed : ∀ field ∈ image.fields, field.WellFormed
  methods_fit : image.methods.length < 65536
  methods_formed : ∀ method ∈ image.methods, method.WellFormed image.entries
  attributes_fit : image.attributes.length < 65536
  attributes_formed : ∀ item ∈ image.attributes, item.WellFormed image.entries

/-- No surrogate stands without its partner in any text of the file. -/
def IsPaired (image : Image) : Prop :=
  ∀ entry ∈ image.entries, entry.IsPaired

instance : DecidablePred IsPaired := fun image =>
  inferInstanceAs (Decidable (∀ entry ∈ image.entries, entry.IsPaired))

def kind (image : Image) : TypeKind :=
  if isSet image.flags .annotatingType then .annotationType
  else if isSet image.flags .interfaceType then .interfaceType
  else if isSet image.flags .enumType then .enumType
  else .classType

/-- The table of nested classes knows the flags that the source gave a nested class. A file has at
most one such table; of several the last would count. -/
def sourceFlags (image : Image) : UInt16 :=
  (image.attributes.filterMap (TypeAttribute.ownFlags? image.this.text)).getLast?.getD image.flags

def modifiers (image : Image) : Modifiers :=
  if image.attributes.any TypeAttribute.isPermittedSubclasses then
    (flagsOf image.sourceFlags).add (.ofList [.sealedType])
  else flagsOf image.sourceFlags

def declared (image : Image) : Declaration where
  name := image.this.binaryName
  kind := image.kind
  modifiers := image.modifiers
  superclass := image.superclass.map Reference.binaryName
  interfaces := image.interfaces.map Reference.binaryName
  constructors := image.methods.filterMap MethodImage.constructor?
  methods := image.methods.filterMap (MethodImage.method? image.this.binaryName)

end Image

end Stubwright.ClassFile
