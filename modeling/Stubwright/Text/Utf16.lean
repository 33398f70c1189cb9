/-!
Texts as code units, as Java holds them. A character above U+FFFF is a high surrogate with a low one
behind it. Nothing keeps a surrogate from standing alone; it is no character then.
-/
namespace Stubwright.Text.Utf16

def IsHigh (unit : UInt16) : Prop :=
  0xd800 ≤ unit.toNat ∧ unit.toNat < 0xdc00

def IsLow (unit : UInt16) : Prop :=
  0xdc00 ≤ unit.toNat ∧ unit.toNat < 0xe000

instance : DecidablePred IsHigh := fun unit =>
  inferInstanceAs (Decidable (0xd800 ≤ unit.toNat ∧ unit.toNat < 0xdc00))

instance : DecidablePred IsLow := fun unit =>
  inferInstanceAs (Decidable (0xdc00 ≤ unit.toNat ∧ unit.toNat < 0xe000))

def single (unit : UInt16) : Option Char :=
  if IsHigh unit ∨ IsLow unit then none else some (Char.ofNat unit.toNat)

def pair (high low : UInt16) : Char :=
  Char.ofNat (0x10000 + (high.toNat - 0xd800) * 1024 + (low.toNat - 0xdc00))

/-- The characters in turn, with `none` for each surrogate without its partner. -/
def characters : List UInt16 → List (Option Char)
  | [] => []
  | [unit] => [single unit]
  | first :: second :: rest =>
      if IsHigh first ∧ IsLow second then some (pair first second) :: characters rest
      else single first :: characters (second :: rest)

/-- Every surrogate has its partner. -/
def IsPaired (units : List UInt16) : Prop :=
  none ∉ characters units

instance : DecidablePred IsPaired := fun units =>
  inferInstanceAs (Decidable (none ∉ characters units))

/-- The text, with U+FFFD in the place of each surrogate without its partner. -/
def text (units : List UInt16) : List Char :=
  (characters units).map (·.getD '\ufffd')

def decode? (units : List UInt16) : Option (List Char) :=
  if IsPaired units then some (text units) else none

def encodeChar (c : Char) : List UInt16 :=
  if c.toNat < 0x10000 then [UInt16.ofNat c.toNat]
  else
    [UInt16.ofNat (0xd800 + (c.toNat - 0x10000) / 1024),
      UInt16.ofNat (0xdc00 + (c.toNat - 0x10000) % 1024)]

def encode (text : List Char) : List UInt16 :=
  text.flatMap encodeChar

end Stubwright.Text.Utf16
