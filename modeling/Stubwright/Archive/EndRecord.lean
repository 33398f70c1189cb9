import Stubwright.Archive.Field

/-!
Where the directory of an archive stands. The end record at the very end of an archive says so; an
archive whose numbers do not fit there has a large end record as well, and a locator between the two
leads to it. Offsets count from the beginning of the archive, and bytes may stand before it.
-/
namespace Stubwright.Archive

def endMark : List UInt8 := [0x50, 0x4b, 0x05, 0x06]

def largeEndMark : List UInt8 := [0x50, 0x4b, 0x06, 0x06]

def locatorMark : List UInt8 := [0x50, 0x4b, 0x06, 0x07]

def endSize : Nat := 22

def largeEndSize : Nat := 56

def locatorSize : Nat := 20

def longestComment : Nat := 65535

/-- The last place from which a whole end record could be read. -/
def lastEndRecord? : (position : Nat) → (found : Option Nat) → List UInt8 → Option Nat
  | _, found, [] => found
  | position, found, byte :: rest =>
      let isHere := endMark.isPrefixOf (byte :: rest) && (rest.drop (endSize - 2)) != []
      lastEndRecord? (position + 1) (if isHere then some position else found) rest

structure EndRecord where
  position : Nat
  disk : Nat
  directoryDisk : Nat
  count : Nat
  total : Nat
  directorySize : Nat
  directoryStart : Nat
  commentSize : Nat
deriving DecidableEq, Repr

/-- Whether a field has its greatest value, which stands for numbers that do not fit. -/
def EndRecord.isFull (last : EndRecord) : Bool :=
  [last.disk, last.directoryDisk, last.count, last.total].contains (Nat.pow 2 16 - 1) ||
    [last.directorySize, last.directoryStart].contains (Nat.pow 2 32 - 1)

def endRecord (bytes : List UInt8) : Except Fault EndRecord := do
  let some position := lastEndRecord? 0 none bytes | throw .noEndRecord
  if position + endSize + longestComment < bytes.length then throw .noEndRecord
  let commentSize ← numberAt bytes (position + 20) 2
  let _ ← bytesAt bytes (position + endSize) commentSize
  pure
    { position
      disk := ← numberAt bytes (position + 4) 2
      directoryDisk := ← numberAt bytes (position + 6) 2
      count := ← numberAt bytes (position + 8) 2
      total := ← numberAt bytes (position + 10) 2
      directorySize := ← numberAt bytes (position + 12) 4
      directoryStart := ← numberAt bytes (position + 16) 4
      commentSize }

structure Locator where
  directoryDisk : Nat
  largeEndStart : Nat
deriving DecidableEq, Repr

/-- The locator of an archive, if there is one. Its place is counted from the end of the bytes, as
if nothing followed the comment. -/
def locator? (bytes : List UInt8) (last : EndRecord) : Except Fault (Option Locator) := do
  let behind := locatorSize + endSize + last.commentSize
  if bytes.length < behind then return none
  let position := bytes.length - behind
  if (← bytesAt bytes position 4) != locatorMark then return none
  pure (some ⟨← numberAt bytes (position + 4) 4, ← numberAt bytes (position + 8) 8⟩)

/-- The place of the directory, what stands before the archive, and how many entries there are. -/
structure Whereabouts where
  start : Nat
  shift : Nat
  count : Nat
deriving DecidableEq, Repr

/-- The first place from some position on, and up to a bound, where a large end record begins. -/
def largeEndFrom? (bound : Nat) : (position : Nat) → List UInt8 → Option Nat
  | _, [] => none
  | position, byte :: rest =>
      if position > bound then none
      else if largeEndMark.isPrefixOf (byte :: rest) then some position
      else largeEndFrom? bound (position + 1) rest

def offsetLimit : Nat := Nat.pow 2 64

/-- Places that a file can be read from. -/
def placeLimit : Nat := Nat.pow 2 63

/-- What the large end record says. It is looked for from its nominal place on, since bytes may
stand before the archive, and both records behind it have to fit in. -/
def largeWhereabouts (bytes : List UInt8) (last : EndRecord) (locator : Locator) :
    Except Fault Whereabouts := do
  if !last.isFull && last.disk != locator.directoryDisk then throw .severalDisks
  if last.position < largeEndSize + 4 then throw .noEndRecord
  let nominal := locator.largeEndStart
  let some position := largeEndFrom? (last.position - (largeEndSize + 4)) nominal
    (bytes.drop nominal) | throw .noEndRecord
  if (← numberAt bytes (position + 16) 4) != (← numberAt bytes (position + 20) 4) then
    throw .severalDisks
  let start := (← numberAt bytes (position + 48) 8) + (position - nominal)
  if start ≥ placeLimit then throw .badOffset
  pure { start, shift := position - nominal, count := ← numberAt bytes (position + 32) 8 }

def whereabouts (bytes : List UInt8) : Except Fault Whereabouts := do
  let last ← endRecord bytes
  if last.disk != last.directoryDisk && !last.isFull then throw .severalDisks
  match ← locator? bytes last with
  | some locator => largeWhereabouts bytes last locator
  | none =>
      if last.directorySize + last.directoryStart > last.position then throw .badOffset
      let shift := last.position - (last.directorySize + last.directoryStart)
      pure { start := last.directoryStart + shift, shift, count := last.count }

end Stubwright.Archive
