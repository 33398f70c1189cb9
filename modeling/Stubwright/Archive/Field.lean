namespace Stubwright.Archive

inductive Fault where
  | noEndRecord
  | severalDisks
  | badOffset
  | cutShort
  | badRecord
  | encrypted
  | unknownMethod
  | badContent
  | badChecksum
  /-- An entry is said to begin where no file can be read. -/
  | outOfReach
deriving DecidableEq, Repr

def Fault.message : Fault → String
  | noEndRecord => "no end of central directory"
  | severalDisks => "archive spans several disks"
  | badOffset => "invalid central directory size or offset"
  | cutShort => "unexpected end of archive"
  | badRecord => "invalid record header"
  | encrypted => "entry is encrypted"
  | unknownMethod => "compression method not supported"
  | badContent => "corrupt compressed content"
  | badChecksum => "invalid checksum"
  | outOfReach => "Invalid argument (os error 22)"

def valueOf : List UInt8 → Nat
  | [] => 0
  | byte :: rest => byte.toNat + 256 * valueOf rest

def fieldOf : (width : Nat) → (value : Nat) → List UInt8
  | 0, _ => []
  | width + 1, value => UInt8.ofNat (value % 256) :: fieldOf width (value / 256)

theorem length_fieldOf (width value : Nat) : (fieldOf width value).length = width := by
  induction width generalizing value with
  | zero => rfl
  | succ width ih => simp [fieldOf, ih]

theorem valueOf_fieldOf {width value : Nat} (fits : value < Nat.pow 256 width) :
    valueOf (fieldOf width value) = value := by
  induction width generalizing value with
  | zero =>
      have zero : value = 0 := by simpa using fits
      simp [fieldOf, valueOf, zero]
  | succ width ih =>
      have smaller : value / 256 < Nat.pow 256 width := by
        rw [Nat.div_lt_iff_lt_mul (by decide)]
        simpa [Nat.pow_succ] using fits
      have byte : (UInt8.ofNat (value % 256)).toNat = value % 256 := by
        simp
      rw [fieldOf, valueOf, ih smaller, byte]
      omega

def bytesAt (bytes : List UInt8) (start count : Nat) : Except Fault (List UInt8) :=
  let slice := (bytes.drop start).take count
  if slice.length = count then .ok slice else .error .cutShort

def numberAt (bytes : List UInt8) (start width : Nat) : Except Fault Nat :=
  (bytesAt bytes start width).map valueOf

end Stubwright.Archive
