import Stubwright.Text.Blank

namespace Stubwright

open Text

inductive Modifier where
  | publicAccess | privateAccess | protectedAccess | staticMember | finalMember
  | synchronizedMember | bridgeMethod | variableArity | nativeMember | interfaceType
  | abstractMember | strictMath | syntheticMember | annotatingType | enumType | sealedType
deriving DecidableEq, Repr

namespace Modifier

/-- The flag's bit in a class file. The last one is no flag there: it marks a type that lists the
subclasses it permits. -/
def bit : Modifier → BitVec 32
  | publicAccess => 0x0001
  | privateAccess => 0x0002
  | protectedAccess => 0x0004
  | staticMember => 0x0008
  | finalMember => 0x0010
  | synchronizedMember => 0x0020
  | bridgeMethod => 0x0040
  | variableArity => 0x0080
  | nativeMember => 0x0100
  | interfaceType => 0x0200
  | abstractMember => 0x0400
  | strictMath => 0x0800
  | syntheticMember => 0x1000
  | annotatingType => 0x2000
  | enumType => 0x4000
  | sealedType => 0x10000

def index : Modifier → Nat
  | publicAccess => 0
  | privateAccess => 1
  | protectedAccess => 2
  | staticMember => 3
  | finalMember => 4
  | synchronizedMember => 5
  | bridgeMethod => 6
  | variableArity => 7
  | nativeMember => 8
  | interfaceType => 9
  | abstractMember => 10
  | strictMath => 11
  | syntheticMember => 12
  | annotatingType => 13
  | enumType => 14
  | sealedType => 16

def keyword : Modifier → String
  | publicAccess => "public"
  | privateAccess => "private"
  | protectedAccess => "protected"
  | staticMember => "static"
  | finalMember => "final"
  | synchronizedMember => "synchronized"
  | bridgeMethod => "bridge"
  | variableArity => "varargs"
  | nativeMember => "native"
  | interfaceType => "interface"
  | abstractMember => "abstract"
  | strictMath => "strictfp"
  | syntheticMember => "synthetic"
  | annotatingType => "annotation"
  | enumType => "enum"
  | sealedType => "sealed"

def all : List Modifier :=
  [publicAccess, protectedAccess, privateAccess, abstractMember, staticMember, finalMember,
    sealedType, synchronizedMember, nativeMember, strictMath, interfaceType, annotatingType,
    enumType, variableArity, bridgeMethod, syntheticMember]

/-- The modifiers that source code may write on a member, in the order in which it writes them. -/
def inSource : List Modifier :=
  [publicAccess, protectedAccess, privateAccess, abstractMember, staticMember, finalMember,
    synchronizedMember, nativeMember, strictMath]

def access : List Modifier :=
  [publicAccess, protectedAccess, privateAccess]

def ofKeyword? (keyword : String) : Option Modifier :=
  all.find? (·.keyword == keyword)

theorem index_lt (modifier : Modifier) : modifier.index < 32 := by
  cases modifier <;> decide

theorem bit_eq_twoPow (modifier : Modifier) :
    modifier.bit = BitVec.twoPow 32 modifier.index := by
  cases modifier <;> rfl

theorem getLsbD_bit (modifier : Modifier) (place : Nat) :
    modifier.bit.getLsbD place = decide (modifier.index = place) := by
  rw [bit_eq_twoPow, BitVec.getLsbD_twoPow]
  simp [modifier.index_lt]

theorem index_inj {left right : Modifier} : left.index = right.index ↔ left = right := by
  cases left <;> cases right <;> decide

theorem mem_all (modifier : Modifier) : modifier ∈ all := by
  cases modifier <;> decide

theorem ofKeyword?_keyword (modifier : Modifier) :
    ofKeyword? modifier.keyword = some modifier := by
  cases modifier <;> rfl

end Modifier

/-- A set of flags, those without a name included. -/
structure Modifiers where
  bits : BitVec 32
deriving DecidableEq, Repr

instance : Inhabited Modifiers := ⟨⟨0⟩⟩

structure UnknownModifier where
  keyword : String
deriving DecidableEq, Repr

def UnknownModifier.message (fault : UnknownModifier) : String :=
  s!"unknown modifier '{fault.keyword}'"

namespace Modifiers

def empty : Modifiers := ⟨0⟩

def ofList (modifiers : List Modifier) : Modifiers :=
  ⟨modifiers.foldl (fun bits modifier => bits ||| modifier.bit) 0⟩

/-- The flags of a class file, which are sixteen bits wide. -/
def ofAccessFlags (flags : Nat) : Modifiers :=
  ⟨BitVec.ofNat 32 (flags % 65536)⟩

def add (flags more : Modifiers) : Modifiers :=
  ⟨flags.bits ||| more.bits⟩

def remove (flags less : Modifiers) : Modifiers :=
  ⟨flags.bits &&& ~~~less.bits⟩

def keep (flags mask : Modifiers) : Modifiers :=
  ⟨flags.bits &&& mask.bits⟩

def includes (flags few : Modifiers) : Bool :=
  flags.bits &&& few.bits == few.bits

def has (flags : Modifiers) (modifier : Modifier) : Bool :=
  flags.includes ⟨modifier.bit⟩

def onMethods : Modifiers := ofList Modifier.inSource

def onConstructors : Modifiers := ofList Modifier.access

/-- A member that a compiler added and source code cannot name. Bridges are synthetic too, but
they take part in overriding. -/
def isHidden (flags : Modifiers) : Bool :=
  flags.has .syntheticMember && !flags.has .bridgeMethod

def keywords (flags : Modifiers) : List String :=
  (Modifier.all.filter flags.has).map Modifier.keyword

def sourceText (flags : Modifiers) : String :=
  " ".intercalate ((Modifier.inSource.filter flags.has).map Modifier.keyword)

def ofKeywords (keywords : List String) : Except UnknownModifier Modifiers :=
  keywords.foldlM (fun flags keyword =>
    match Modifier.ofKeyword? (trimmed keyword) with
    | some modifier => .ok (flags.add ⟨modifier.bit⟩)
    | none => .error ⟨keyword⟩) empty

theorem has_eq_getLsbD (flags : Modifiers) (modifier : Modifier) :
    flags.has modifier = flags.bits.getLsbD modifier.index := by
  have inRange : (BitVec.twoPow 32 modifier.index).getLsbD modifier.index = true := by
    simp [modifier.index_lt]
  simp only [has, includes, modifier.bit_eq_twoPow, BitVec.and_twoPow]
  cases set : flags.bits.getLsbD modifier.index with
  | true => simp
  | false =>
      have nonzero : BitVec.twoPow 32 modifier.index ≠ 0#32 := by
        intro zero
        simp [zero] at inRange
      simpa using nonzero.symm

theorem eq_of_getLsbD {flags others : Modifiers}
    (same : ∀ place, flags.bits.getLsbD place = others.bits.getLsbD place) : flags = others :=
  congrArg Modifiers.mk (BitVec.eq_of_getLsbD_eq fun place _ => same place)

@[simp]
theorem has_add (flags more : Modifiers) (modifier : Modifier) :
    (flags.add more).has modifier = (flags.has modifier || more.has modifier) := by
  simp [has_eq_getLsbD, add]

@[simp]
theorem has_remove (flags less : Modifiers) (modifier : Modifier) :
    (flags.remove less).has modifier = (flags.has modifier && !less.has modifier) := by
  simp [has_eq_getLsbD, remove, modifier.index_lt]

@[simp]
theorem has_keep (flags mask : Modifiers) (modifier : Modifier) :
    (flags.keep mask).has modifier = (flags.has modifier && mask.has modifier) := by
  simp [has_eq_getLsbD, keep]

theorem getLsbD_ofList (modifiers : List Modifier) (place : Nat) :
    (ofList modifiers).bits.getLsbD place = true ↔ ∃ modifier ∈ modifiers, modifier.index = place := by
  suffices folded : ∀ bits : BitVec 32,
      (modifiers.foldl (fun bits modifier => bits ||| modifier.bit) bits).getLsbD place = true ↔
        bits.getLsbD place = true ∨ ∃ modifier ∈ modifiers, modifier.index = place by
    simpa [ofList] using folded 0
  induction modifiers with
  | nil => simp
  | cons first rest ih =>
      intro bits
      rw [List.foldl_cons, ih, BitVec.getLsbD_or, Modifier.getLsbD_bit]
      simp [or_assoc]

@[simp]
theorem has_ofList (modifiers : List Modifier) (modifier : Modifier) :
    (ofList modifiers).has modifier = decide (modifier ∈ modifiers) := by
  rw [Bool.eq_iff_iff, decide_eq_true_iff, has_eq_getLsbD, getLsbD_ofList]
  simp [Modifier.index_inj]

@[simp]
theorem add_add (flags more : Modifiers) : (flags.add more).add more = flags.add more := by
  simp [add, BitVec.or_assoc]

end Modifiers

end Stubwright
