import Stubwright.ClassFile.Declared
import Stubwright.Proofs.ClassFile.Pool

namespace Stubwright.ClassFile

variable {entries : List Entry}

theorem ofAccessFlags_toNat (flags : UInt16) :
    Modifiers.ofAccessFlags flags.toNat = flagsOf flags := by
  have small : flags.toNat % 65536 = flags.toNat := Nat.mod_eq_of_lt flags.toNat_lt
  have widened : BitVec.ofNat 32 flags.toNat = flags.toBitVec.setWidth 32 := by
    apply BitVec.eq_of_toNat_eq
    simp
  rw [Modifiers.ofAccessFlags, small, widened]
  rfl

theorem has_flagsOf (flags : UInt16) (modifier : Modifier) :
    (flagsOf flags).has modifier = isSet flags modifier := by
  simp [Modifiers.has_eq_getLsbD, flagsOf, isSet, BitVec.getLsbD]

theorem reads_className {reference : Reference} (named : reference.IsClass entries) :
    Reads (readClassName (poolOf entries)) reference.encode reference.binaryName :=
  (reads_u2 reference.index).bind_end (.lift (binaryName_of_isClass named))

theorem reads_classNames {references : List Reference} (fits : references.length < 65536)
    (named : ∀ reference ∈ references, reference.IsClass entries) :
    Reads (Reader.counted (readClassName (poolOf entries))) (counted Reference.encode references)
      (references.map Reference.binaryName) :=
  reads_counted fits fun reference member => reads_className (named reference member)

theorem length_counted {encode : α → List UInt8} {width : Nat}
    (each : ∀ item, (encode item).length = width) (items : List α) :
    (counted encode items).length = 2 + items.length * width := by
  have body : (items.flatMap encode).length = items.length * width := by
    induction items with
    | nil => simp
    | cons item others ih =>
        rw [List.flatMap_cons, List.length_append, each, ih, List.length_cons, Nat.succ_mul,
          Nat.add_comm]
  rw [counted, List.length_append, length_bigEndian, body]

theorem reads_memberHead (flags nameIndex descriptorIndex : UInt16) {count : Nat}
    (fits : count < 65536) :
    Reads readMemberHead (encodeMemberHead flags nameIndex descriptorIndex count)
      ⟨flags.toNat, nameIndex.toNat, descriptorIndex.toNat, count⟩ :=
  (reads_u2 flags).bind ((reads_u2 nameIndex).bind ((reads_u2 descriptorIndex).bind
    ((reads_count fits).bind_end (.pure _))))

theorem reads_skipAttribute (nameIndex : UInt16) {body : List UInt8}
    (fits : body.length < 4294967296) :
    Reads skipAttribute (encodeAttribute nameIndex body) () :=
  (reads_u2 nameIndex).bind ((reads_u4 fits).bind (reads_skip body))

theorem reads_field {field : FieldImage} (formed : field.WellFormed) :
    Reads skipField field.encode () := by
  obtain ⟨count, bodies⟩ := formed
  have head := reads_memberHead field.flags field.nameIndex field.descriptorIndex count
  have items := reads_times fun item member => reads_skipAttribute item.1 (bodies item member)
  exact head.bind (items.bind_end (.pure ()))

/-- Attributes with a meaning are told by their names and read in the bytes that they claim. -/
theorem reads_attribute {nameIndex : UInt16} {name : String} {body : List UInt8}
    {next : Nat → String → Reader β} {result : β}
    (named : textAt? entries nameIndex = some name) (size : body.length < 4294967296)
    (content : Reads (next body.length name) body result) :
    Reads
      (do
        let index ← Reader.u2
        let length ← Reader.u4
        let name ← (poolOf entries).text index
        next length name)
      (encodeAttribute nameIndex body) result :=
  (reads_u2 nameIndex).bind ((reads_u4 size).bind
    (Reads.start_bind (.lift (text_of_textAt? named)) content))

theorem reads_exceptions {item : MethodAttribute} (formed : item.WellFormed entries) :
    Reads (readExceptions (poolOf entries)) item.encode item.exceptionTypes := by
  cases item with
  | exceptions nameIndex types =>
      obtain ⟨name, count, named⟩ := formed
      have size : (counted Reference.encode types).length = 2 + types.length * 2 :=
        length_counted (fun _ => length_bigEndian 2 _) types
      have table := (reads_classNames count named).value_eq
      have body := reads_slice (counted Reference.encode types)
      have meaning : (types.map Reference.binaryName).map JavaType.reference =
          (MethodAttribute.exceptions nameIndex types).exceptionTypes := by
        rw [List.map_map]
        rfl
      refine reads_attribute name (by omega) ?_
      rw [if_pos rfl, ← meaning]
      exact body.bind_end (Reads.bind_end (.lift table) (.pure _))
  | other item =>
      obtain ⟨name, different, size⟩ := formed
      refine reads_attribute name size ?_
      rw [if_neg different]
      exact (reads_skip item.body).bind_end (.pure _)

def MethodImage.entry (owner : String) (method : MethodImage) : MemberEntry :=
  match method.constructor?, method.method? owner with
  | some constructor, _ => .constructor constructor
  | none, some method => .method method
  | none, none => .hidden

theorem MethodImage.constructor?_entry (owner : String) (method : MethodImage) :
    (method.entry owner).constructor? = method.constructor? := by
  unfold entry
  cases method.constructor? <;> cases method.method? owner <;> rfl

theorem MethodImage.method?_entry (owner : String) (method : MethodImage) :
    (method.entry owner).method? = method.method? owner := by
  unfold entry
  cases built : method.constructor? with
  | none => cases method.method? owner <;> rfl
  | some constructor =>
      have initializer : method.name.text = "<init>" := by
        unfold constructor? at built
        split at built
        · rename_i kept
          simp only [Bool.and_eq_true, beq_iff_eq] at kept
          exact kept.2
        · cases built
      simp [method?, initializer, MemberEntry.method?]

theorem memberEntry_eq {method : MethodImage} (formed : method.WellFormed entries)
    (owner : String) :
    memberEntry owner method.name.text
        (String.ofList (methodDescriptor method.parameters method.returnType))
        (.ofAccessFlags method.flags.toNat) method.exceptions = .ok (method.entry owner) := by
  obtain ⟨-, -, parameters, returned, -⟩ := formed
  have types := methodTypes_methodDescriptor parameters returned
  have hidden : (flagsOf method.flags).isHidden = method.isHidden := by
    rw [Modifiers.isHidden, has_flagsOf, has_flagsOf]
    rfl
  rw [memberEntry, ofAccessFlags_toNat, hidden, String.toList_ofList, types]
  by_cases dropped : method.isHidden
  · simp [MethodImage.entry, MethodImage.constructor?, MethodImage.method?, dropped]
  by_cases initializer : method.name.text = "<init>"
  · simp [MethodImage.entry, MethodImage.constructor?, dropped, initializer]
  · by_cases classInitializer : method.name.text = "<clinit>"
    · simp [MethodImage.entry, MethodImage.constructor?, MethodImage.method?, classInitializer]
    · simp [MethodImage.entry, MethodImage.constructor?, MethodImage.method?, dropped, initializer,
        classInitializer]

theorem reads_member {method : MethodImage} (formed : method.WellFormed entries) (owner : String) :
    Reads (readMember (poolOf entries) owner) method.encode (method.entry owner) := by
  have meaning := memberEntry_eq formed owner
  obtain ⟨name, descriptor, -, -, count, items⟩ := formed
  have head := reads_memberHead method.flags method.name.index method.descriptorIndex count
  have exceptions := reads_times fun item member => reads_exceptions (items item member)
  exact head.bind (Reads.start_bind (.lift (text_of_textAt? name))
    (Reads.start_bind (.lift (text_of_textAt? descriptor)) (exceptions.bind_end (.lift meaning))))

theorem reads_optional (reference : Option Reference) :
    Reads Reader.u2 (encodeOptional reference) (indexOf reference).toNat :=
  reads_u2 _

theorem readSuperclass_eq {superclass : Option Reference}
    (named : ∀ reference ∈ superclass, reference.IsClass entries) :
    readSuperclass (poolOf entries) (indexOf superclass).toNat =
      .ok (superclass.map Reference.binaryName) := by
  cases superclass with
  | none => rfl
  | some reference =>
      have named := named reference rfl
      have name := binaryName_of_isClass named
      have positive := index_pos_of_isClass named
      rw [indexOf, readSuperclass, if_neg positive, name]
      rfl

theorem nestedFlags?_cons (this : String) (nested : NestedImage) (others : List NestedImage) :
    nestedFlags? this (nested :: others) =
      if nested.inner.any (·.text == this) then some nested.flags else nestedFlags? this others := by
  cases same : nested.inner.any (·.text == this) <;> simp [nestedFlags?, same]

/-- One line of the table: it ends the search if it is for the class, and is passed by otherwise. -/
theorem nestedFlags_value_cons {this : Reference} (named : this.IsClass entries)
    {nested : NestedImage} (inner : ∀ inner ∈ nested.inner, inner.IsClass entries)
    (others : Nat) (behind : List UInt8) :
    (readNestedFlags (poolOf entries) this.index.toNat (others + 1)).value
        (nested.encode ++ behind) =
      if nested.inner.any (·.text == this.text) then .ok (some nested.flags.toNat)
      else (readNestedFlags (poolOf entries) this.index.toNat others).value behind := by
  have thisName := className_of_classAt? named
  have skipped := reads_skip (bigEndian 2 nested.outerIndex.toNat ++
    bigEndian 2 nested.nameIndex.toNat)
  rw [List.length_append, length_bigEndian, length_bigEndian] at skipped
  have line : nested.encode ++ behind =
      encodeOptional nested.inner ++ ((bigEndian 2 nested.outerIndex.toNat ++
        bigEndian 2 nested.nameIndex.toNat) ++ (bigEndian 2 nested.flags.toNat ++ behind)) := by
    simp only [NestedImage.encode, List.append_assoc]
  rw [line, readNestedFlags, (reads_optional _).value_bind, skipped.value_bind,
    (reads_u2 _).value_bind]
  cases given : nested.inner with
  | none =>
      have absent : (indexOf none).toNat = 0 := rfl
      rw [if_pos absent, Option.any_none, if_neg Bool.false_ne_true]
  | some reference =>
      have innerNamed := inner reference given
      have innerName := className_of_classAt? innerNamed
      have positive := index_pos_of_isClass innerNamed
      rw [indexOf, if_neg positive, (Reads.lift innerName).start_value_bind,
        (Reads.lift thisName).start_value_bind]
      by_cases same : reference.text = this.text
      · rw [if_pos same, Option.any_some, if_pos (beq_iff_eq.mpr same)]
        rfl
      · rw [if_neg same, Option.any_some, if_neg (mt beq_iff_eq.mp same)]

/-- The reader stops at the first line for the class and leaves the lines after it. -/
theorem nestedFlags_value {this : Reference} (named : this.IsClass entries)
    {table : List NestedImage}
    (inners : ∀ nested ∈ table, ∀ inner ∈ nested.inner, inner.IsClass entries) :
    (readNestedFlags (poolOf entries) this.index.toNat table.length).value
        (table.flatMap NestedImage.encode) =
      .ok ((nestedFlags? this.text table).map UInt16.toNat) := by
  induction table with
  | nil => rfl
  | cons nested others ih =>
      have rest := ih fun other member => inners other (List.mem_cons_of_mem nested member)
      rw [List.flatMap_cons, List.length_cons,
        nestedFlags_value_cons named (inners nested List.mem_cons_self), rest, nestedFlags?_cons]
      split <;> rfl

def TypeAttribute.effect (this : String) : TypeAttribute → ClassAttribute
  | permittedSubclasses _ _ => .permittedSubclasses
  | innerClasses _ table =>
      match nestedFlags? this table with
      | some flags => .nestedFlags flags.toNat
      | none => .other
  | other _ => .other

theorem reads_classAttribute {this : Reference} (named : this.IsClass entries)
    {item : TypeAttribute} (formed : item.WellFormed entries) :
    Reads (readClassAttribute (poolOf entries) this.index.toNat) item.encode
      (item.effect this.text) := by
  cases item with
  | permittedSubclasses nameIndex body =>
      obtain ⟨name, size⟩ := formed
      refine reads_attribute name size ((reads_slice body).bind_end ?_)
      rw [if_pos rfl]
      exact .pure _
  | innerClasses nameIndex table =>
      obtain ⟨name, count, inners⟩ := formed
      have width : ∀ nested : NestedImage, nested.encode.length = 8 := by
        intro nested
        simp [NestedImage.encode, encodeOptional, length_bigEndian]
      have size : (counted NestedImage.encode table).length = 2 + table.length * 8 :=
        length_counted width table
      have flags := nestedFlags_value named inners
      refine reads_attribute name (by omega) ((reads_slice _).bind_end ?_)
      rw [if_neg (by decide), if_pos rfl]
      refine Reads.start_bind (.lift (((reads_count count).value_bind _).trans flags)) ?_
      rw [TypeAttribute.effect]
      cases nestedFlags? this.text table <;> exact .pure _
  | other item =>
      obtain ⟨name, notPermitted, notNested, size⟩ := formed
      refine reads_attribute name size ((reads_slice item.body).bind_end ?_)
      rw [if_neg notPermitted, if_neg notNested]
      exact .pure _

def markedFlags (flags : UInt16) (isSealed : Bool) : Modifiers :=
  if isSealed then (flagsOf flags).add (.ofList [.sealedType]) else flagsOf flags

theorem getLsbD_sealedType (place : Nat) :
    (Modifiers.ofList [.sealedType]).bits.getLsbD place = decide (place = 16) := by
  have single : (Modifiers.ofList [.sealedType]).bits = Modifier.sealedType.bit := rfl
  rw [single, Modifier.getLsbD_bit]
  exact decide_eq_decide.mpr eq_comm

/-- The mark lies outside the sixteen bits of a class file, so new flags leave it as it is. -/
theorem add_keep_markedFlags (flags old : UInt16) (isSealed : Bool) :
    (flagsOf flags).add ((markedFlags old isSealed).keep (.ofList [.sealedType])) =
      markedFlags flags isSealed := by
  refine Modifiers.eq_of_getLsbD fun place => ?_
  by_cases mark : place = 16
  · subst mark
    cases isSealed <;> simp [markedFlags, Modifiers.add, Modifiers.keep, flagsOf]
  · cases isSealed <;>
      simp [markedFlags, Modifiers.add, Modifiers.keep, flagsOf, getLsbD_sealedType, mark]

theorem apply_effect (this : String) (item : TypeAttribute) (flags : UInt16) (isSealed : Bool) :
    (item.effect this).apply (markedFlags flags isSealed) =
      markedFlags ((item.ownFlags? this).getD flags) (isSealed || item.isPermittedSubclasses) := by
  cases item with
  | permittedSubclasses _ _ =>
      have marked : (markedFlags flags isSealed).add (.ofList [.sealedType]) =
          markedFlags flags true := by
        cases isSealed
        · rfl
        · exact Modifiers.add_add _ _
      rw [TypeAttribute.isPermittedSubclasses, Bool.or_true]
      exact marked
  | innerClasses _ table =>
      cases found : nestedFlags? this table with
      | none => simp [TypeAttribute.effect, TypeAttribute.ownFlags?, found,
          TypeAttribute.isPermittedSubclasses, ClassAttribute.apply]
      | some own =>
          have replaced := add_keep_markedFlags own flags isSealed
          simp only [TypeAttribute.effect, TypeAttribute.ownFlags?, found, ClassAttribute.apply,
            TypeAttribute.isPermittedSubclasses, ofAccessFlags_toNat, Bool.or_false,
            Option.getD_some]
          exact replaced
  | other _ =>
      simp [TypeAttribute.effect, TypeAttribute.ownFlags?, TypeAttribute.isPermittedSubclasses,
        ClassAttribute.apply]

theorem foldl_effect (this : String) (items : List TypeAttribute) (flags : UInt16)
    (isSealed : Bool) :
    (items.map (TypeAttribute.effect this)).foldl ClassAttribute.apply
        (markedFlags flags isSealed) =
      markedFlags ((items.filterMap (TypeAttribute.ownFlags? this)).getLast?.getD flags)
        (isSealed || items.any TypeAttribute.isPermittedSubclasses) := by
  induction items generalizing flags isSealed with
  | nil => simp
  | cons item others ih =>
      rw [List.map_cons, List.foldl_cons, apply_effect, ih, List.any_cons, Bool.or_assoc]
      cases own : item.ownFlags? this with
      | none => rw [List.filterMap_cons_none own, Option.getD_none]
      | some own' =>
          rw [List.filterMap_cons_some own, List.getLast?_cons]
          rfl

theorem kindOfFlags_flagsOf (image : Image) : kindOfFlags (flagsOf image.flags) = image.kind := by
  simp only [kindOfFlags, has_flagsOf]
  rfl

theorem filterMap_entry (methods : List MethodImage) (owner : String) :
    (methods.map (MethodImage.entry owner)).filterMap MemberEntry.constructor? =
        methods.filterMap MethodImage.constructor? ∧
      (methods.map (MethodImage.entry owner)).filterMap MemberEntry.method? =
        methods.filterMap (MethodImage.method? owner) := by
  constructor
  · have entry : MemberEntry.constructor? ∘ MethodImage.entry owner = MethodImage.constructor? :=
      funext fun method => method.constructor?_entry owner
    rw [List.filterMap_map, entry]
  · have entry : MemberEntry.method? ∘ MethodImage.entry owner = MethodImage.method? owner :=
      funext fun method => method.method?_entry owner
    rw [List.filterMap_map, entry]

theorem reads_version (version : UInt16) :
    Reads (Reader.skip 2) (bigEndian 2 version.toNat) () :=
  length_bigEndian 2 version.toNat ▸ reads_skip (bigEndian 2 version.toNat)

theorem reads_declaration {image : Image} (formed : image.WellFormed) (paired : image.IsPaired) :
    Reads readDeclaration image.encode image.declared := by
  have interfaces := reads_classNames formed.interfaces_fit formed.interfaces_named
  have fields := reads_counted formed.fields_fit fun field member =>
    reads_field (formed.fields_formed field member)
  have members := reads_counted formed.methods_fit fun method member =>
    reads_member (formed.methods_formed method member) image.this.binaryName
  have attributes := reads_counted formed.attributes_fit fun item member =>
    reads_classAttribute formed.this_named (formed.attributes_formed item member)
  obtain ⟨constructors, methods⟩ := filterMap_entry image.methods image.this.binaryName
  have modifiers : (image.attributes.map (TypeAttribute.effect image.this.text)).foldl
      ClassAttribute.apply (flagsOf image.flags) = image.modifiers :=
    foldl_effect image.this.text image.attributes image.flags false
  have name := binaryName_of_isClass formed.this_named
  have superclass := readSuperclass_eq formed.superclass_named
  have declared : image.declared =
      { name := image.this.binaryName
        kind := kindOfFlags (.ofAccessFlags image.flags.toNat)
        modifiers := (image.attributes.map (TypeAttribute.effect image.this.text)).foldl
          ClassAttribute.apply (.ofAccessFlags image.flags.toNat)
        superclass := image.superclass.map Reference.binaryName
        interfaces := image.interfaces.map Reference.binaryName
        constructors := (image.methods.map (MethodImage.entry image.this.binaryName)).filterMap
          MemberEntry.constructor?
        methods := (image.methods.map (MethodImage.entry image.this.binaryName)).filterMap
          MemberEntry.method? } := by
    rw [constructors, methods, ofAccessFlags_toNat, kindOfFlags_flagsOf, modifiers]
    rfl
  rw [declared]
  simp only [Image.encode, List.append_assoc]
  -- The test of the magic number stands between two reads, so the chain is built in two parts.
  refine (reads_u4 (by decide)).bind ?_
  rw [if_neg (by decide)]
  have pool := reads_pool formed.slots_fit formed.texts_fit paired
  exact (reads_version _).bind ((reads_version _).bind (pool.bind ((reads_u2 _).bind
    ((reads_u2 _).bind ((reads_u2 _).bind (Reads.start_bind (.lift name) (Reads.start_bind
      (.lift superclass) (interfaces.bind (fields.bind (members.bind (attributes.bind_end
        (.pure _))))))))))))

/-- The constants are read before anything that refers to them. -/
theorem fails_declaration {image : Image} (formed : image.WellFormed) (alone : ¬image.IsPaired) :
    Fails readDeclaration image.encode .badText := by
  have pool := fails_pool formed.slots_fit formed.texts_fit alone
  simp only [Image.encode, List.append_assoc]
  refine (reads_u4 (by decide)).bind_fails ?_
  rw [if_neg (by decide)]
  exact (reads_version _).bind_fails ((reads_version _).bind_fails (pool.bind.append _))

/-- Decoding undoes encoding, if every surrogate among the texts has its partner. A text where one
stands alone makes the whole file unreadable, whether or not anything refers to it. -/
theorem declaration_encode {image : Image} (formed : image.WellFormed) :
    declaration image.encode =
      if image.IsPaired then .ok image.declared else .error .badText := by
  by_cases paired : image.IsPaired
  · rw [if_pos paired]
    exact (reads_declaration formed paired).value_eq
  · rw [if_neg paired]
    exact (fails_declaration formed paired).value_eq

/-- A sealed nested class. The first constant refers to a later one, constants with two indexes
stand in the middle and at the end, and two of the four methods are dropped. -/
def nestedImage : Image where
  minorVersion := 0
  majorVersion := 65
  entries :=
    [.classReference 5, .filler .long ⟨#[1, 2, 3, 4, 5, 6, 7, 8], rfl⟩, .ofString "\x00é𝄞",
      .ofString "p/Outer$In", .classReference 7, .ofString "java/lang/Object",
      .ofString "Exceptions", .ofString "InnerClasses", .ofString "PermittedSubclasses",
      .ofString "Code", .ofString "<init>", .ofString "(I[[Lp/Outer;)V", .ofString "run",
      .ofString "()Ljava/lang/Object;", .ofString "<clinit>", .ofString "()V",
      .filler .methodHandle ⟨#[6, 0, 1], rfl⟩, .filler .double ⟨#[0, 0, 0, 0, 0, 0, 0, 0], rfl⟩]
  flags := 0x0421
  this := ⟨1, "p/Outer$In"⟩
  superclass := some ⟨6, "java/lang/Object"⟩
  interfaces := [⟨1, "p/Outer$In"⟩]
  fields := [⟨0x0002, 14, 15, [(11, [1, 2, 3]), (0, [])]⟩]
  methods :=
    [⟨0x0001, ⟨12, "<init>"⟩, 13,
        [.primitive .int, .array (.reference "p.Outer") 2], .void,
        [.other ⟨⟨11, "Code"⟩, [0xb1]⟩, .exceptions 8 [⟨6, "java/lang/Object"⟩]]⟩,
      ⟨0x1001, ⟨14, "run"⟩, 15, [], .reference "java.lang.Object", []⟩,
      ⟨0x1041, ⟨14, "run"⟩, 15, [], .reference "java.lang.Object", []⟩,
      ⟨0x0008, ⟨16, "<clinit>"⟩, 17, [], .void, []⟩]
  attributes :=
    [.permittedSubclasses 10 [0, 0], .other ⟨⟨11, "Code"⟩, [1]⟩,
      .innerClasses 9 [⟨none, 1, 14, 0xffff⟩, ⟨some ⟨1, "p/Outer$In"⟩, 0, 14, 0x0408⟩]]

theorem declaration_nestedImage :
    nestedImage.WellFormed ∧ declaration nestedImage.encode =
      .ok
        { name := "p.Outer$In"
          kind := .classType
          modifiers := ⟨0x10408⟩
          superclass := some "java.lang.Object"
          interfaces := ["p.Outer$In"]
          constructors :=
            [⟨[.primitive .int, .array (.reference "p.Outer") 2],
              [.reference "java.lang.Object"], ⟨0x1⟩⟩]
          methods :=
            [⟨"run", "p.Outer$In", .reference "java.lang.Object", [], [], ⟨0x1041⟩⟩] } := by
  have formed : nestedImage.WellFormed :=
    { slots_fit := by decide
      texts_fit := by decide
      this_named := by decide
      superclass_named := by decide
      interfaces_fit := by decide
      interfaces_named := by decide
      fields_fit := by decide
      fields_formed := by decide
      methods_fit := by decide
      methods_formed := by decide
      attributes_fit := by decide
      attributes_formed := by decide }
  have paired : nestedImage.IsPaired := by decide
  have read := declaration_encode formed
  rw [if_pos paired] at read
  exact ⟨formed, read.trans (congrArg Except.ok (by decide))⟩

/-- The class `A`, which has no members and no superclass. -/
def bareImage : Image where
  minorVersion := 0
  majorVersion := 65
  entries := [.classReference 2, .ofString "A"]
  flags := 0
  this := ⟨1, "A"⟩
  superclass := none
  interfaces := []
  fields := []
  methods := []
  attributes := []

/-- The class `A` with the constant of a literal that is half of a pair of surrogates. -/
def halfPairImage : Image :=
  { bareImage with entries := bareImage.entries ++ [.text [0xd800]] }

/-- Not every class file that can be written is read: nothing refers to the constant here. -/
theorem not_declaration_encode_halfPair :
    ¬∀ image : Image, image.WellFormed → declaration image.encode = .ok image.declared := by
  intro undoes
  have formed : halfPairImage.WellFormed :=
    { slots_fit := by decide
      texts_fit := by decide
      this_named := by decide
      superclass_named := by decide
      interfaces_fit := by decide
      interfaces_named := by decide
      fields_fit := by decide
      fields_formed := by decide
      methods_fit := by decide
      methods_formed := by decide
      attributes_fit := by decide
      attributes_formed := by decide }
  have refused : declaration halfPairImage.encode = .error .badText :=
    (fails_declaration formed (by decide)).value_eq
  have read := undoes halfPairImage formed
  rw [refused] at read
  cases read

end Stubwright.ClassFile
