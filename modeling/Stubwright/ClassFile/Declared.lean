import Stubwright.ClassFile.Pool
import Stubwright.Declaration

/-!
The declaration that a class file holds. Fields are skipped, and so are methods that source code
cannot name: class initializers and synthetic methods other than bridges. Bytes after the last
attribute are not looked at.
-/
namespace Stubwright.ClassFile

/-- The access flags, name and descriptor indexes of a member, and its number of attributes. -/
structure MemberHead where
  flags : Nat
  nameIndex : Nat
  descriptorIndex : Nat
  attributeCount : Nat

def readMemberHead : Reader MemberHead := do
  let flags ← Reader.u2
  let nameIndex ← Reader.u2
  let descriptorIndex ← Reader.u2
  let attributeCount ← Reader.u2
  pure { flags, nameIndex, descriptorIndex, attributeCount }

def skipAttribute : Reader Unit := do
  let _ ← Reader.u2
  let length ← Reader.u4
  Reader.skip length

def skipField : Reader Unit := do
  let head ← readMemberHead
  let _ ← Reader.times head.attributeCount skipAttribute
  pure ()

def readClassName (pool : Pool) : Reader String := do
  let index ← Reader.u2
  pool.binaryName index

/-- The exceptions that an attribute of a method declares; none unless it is `Exceptions`. -/
def readExceptions (pool : Pool) : Reader (List JavaType) := do
  let nameIndex ← Reader.u2
  let length ← Reader.u4
  let name ← pool.text nameIndex
  if name = "Exceptions" then do
    let body ← Reader.slice length
    let names ← (Reader.counted (readClassName pool)).value body
    pure (names.map .reference)
  else do
    Reader.skip length
    pure []

inductive MemberEntry where
  | method (declared : Method)
  | constructor (declared : Constructor)
  | hidden

def MemberEntry.method? : MemberEntry → Option Method
  | .method declared => some declared
  | _ => none

def MemberEntry.constructor? : MemberEntry → Option Constructor
  | .constructor declared => some declared
  | _ => none

/-- What a method of the file is to its class. The descriptor of a hidden one is never read. -/
def memberEntry (owner name descriptor : String) (modifiers : Modifiers)
    (exceptions : List JavaType) : Except Fault MemberEntry :=
  if modifiers.isHidden || name == "<clinit>" then .ok .hidden
  else
    match methodTypes descriptor.toList with
    | .error fault => .error (.badDescriptor fault)
    | .ok (parameters, returnType) =>
        if name = "<init>" then .ok (.constructor { parameters, exceptions, modifiers })
        else
          .ok (.method
            { name, declaringType := owner, returnType, parameters, exceptions, modifiers })

def readMember (pool : Pool) (owner : String) : Reader MemberEntry := do
  let head ← readMemberHead
  let name ← pool.text head.nameIndex
  let descriptor ← pool.text head.descriptorIndex
  let exceptions ← Reader.times head.attributeCount (readExceptions pool)
  memberEntry owner name descriptor (.ofAccessFlags head.flags) exceptions.flatten

/-- The flags that a table of nested classes gives the class itself, in its first entry for it. -/
def readNestedFlags (pool : Pool) (thisIndex : Nat) : Nat → Reader (Option Nat)
  | 0 => pure none
  | count + 1 => do
      let innerIndex ← Reader.u2
      Reader.skip 4
      let flags ← Reader.u2
      if innerIndex = 0 then readNestedFlags pool thisIndex count
      else do
        let inner ← pool.className innerIndex
        let this ← pool.className thisIndex
        if inner = this then pure (some flags) else readNestedFlags pool thisIndex count

inductive ClassAttribute where
  | permittedSubclasses
  | nestedFlags (flags : Nat)
  | other

def readClassAttribute (pool : Pool) (thisIndex : Nat) : Reader ClassAttribute := do
  let nameIndex ← Reader.u2
  let length ← Reader.u4
  let name ← pool.text nameIndex
  let body ← Reader.slice length
  if name = "PermittedSubclasses" then pure .permittedSubclasses
  else if name = "InnerClasses" then do
    let table : Reader (Option Nat) := do
      let count ← Reader.u2
      readNestedFlags pool thisIndex count
    match ← table.value body with
    | some flags => pure (.nestedFlags flags)
    | none => pure .other
  else pure .other

/-- The flags after one more attribute. Nested types keep their source modifiers only in the table
of nested classes; being sealed is not among them. -/
def ClassAttribute.apply (modifiers : Modifiers) : ClassAttribute → Modifiers
  | permittedSubclasses => modifiers.add (.ofList [.sealedType])
  | nestedFlags flags =>
      (Modifiers.ofAccessFlags flags).add (modifiers.keep (.ofList [.sealedType]))
  | other => modifiers

def kindOfFlags (flags : Modifiers) : TypeKind :=
  if flags.has .annotatingType then .annotationType
  else if flags.has .interfaceType then .interfaceType
  else if flags.has .enumType then .enumType
  else .classType

def readSuperclass (pool : Pool) (index : Nat) : Except Fault (Option String) :=
  if index = 0 then .ok none else (pool.binaryName index).map some

def readDeclaration : Reader Declaration := do
  let magic ← Reader.u4
  if magic ≠ 0xcafebabe then Reader.fail .badMagic
  Reader.skip 2
  Reader.skip 2
  let pool ← Pool.read
  let flags ← Reader.u2
  let thisIndex ← Reader.u2
  let superIndex ← Reader.u2
  let name ← pool.binaryName thisIndex
  let superclass ← readSuperclass pool superIndex
  let interfaces ← Reader.counted (readClassName pool)
  let _ ← Reader.counted skipField
  let members ← Reader.counted (readMember pool name)
  let attributes ← Reader.counted (readClassAttribute pool thisIndex)
  let accessFlags := Modifiers.ofAccessFlags flags
  pure
    { name
      kind := kindOfFlags accessFlags
      modifiers := attributes.foldl ClassAttribute.apply accessFlags
      superclass
      interfaces
      constructors := members.filterMap MemberEntry.constructor?
      methods := members.filterMap MemberEntry.method? }

def declaration (bytes : List UInt8) : Except Fault Declaration :=
  readDeclaration.value bytes

end Stubwright.ClassFile
