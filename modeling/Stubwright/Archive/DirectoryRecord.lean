import Stubwright.Archive.CodePage
import Stubwright.Archive.EndRecord
import Stubwright.Text.Utf8

namespace Stubwright.Archive

inductive Method where
  | stored
  | deflated
  | unknown (number : Nat)
deriving DecidableEq, Repr

def Method.ofNumber : Nat → Method
  | 0 => stored
  | 8 => deflated
  | number => unknown number

structure Entry where
  name : String
  method : Method
  isEncrypted : Bool
  isSealed : Bool
  checksum : Nat
  size : Nat
  storedSize : Nat
  start : Nat
deriving DecidableEq, Repr

def directoryMark : List UInt8 := [0x50, 0x4b, 0x01, 0x02]

def fullNumber : Nat := Nat.pow 2 32 - 1

/-- A number, or the eight bytes in front if it is full; nothing if they are cut short. -/
def widen? (number : Nat) (extra : List UInt8) : Option (Nat × List UInt8) :=
  if number != fullNumber then some (number, extra)
  else
    match numberAt extra 0 8 with
    | .ok number => some (number, extra.drop 8)
    | .error _ => none

/-- An entry with its full numbers replaced, in the order in which they are given, and what is
behind them unless they are cut short. -/
def Entry.widen (entry : Entry) (extra : List UInt8) : Entry × Option (List UInt8) :=
  match widen? entry.size extra with
  | none => (entry, none)
  | some (size, extra) =>
      let entry := { entry with size }
      match widen? entry.storedSize extra with
      | none => (entry, none)
      | some (storedSize, extra) =>
          let entry := { entry with storedSize }
          match widen? entry.start extra with
          | none => (entry, none)
          | some (start, extra) => ({ entry with start }, some extra)

/-- The method number of entries that are encrypted as a whole. -/
def encryptingMethod : Nat := 99

/-- The method below an encryption, which an extra field of seven bytes gives: a version, a maker,
a strength, and the method. -/
def encryptedMethod (extra : List UInt8) : Except Fault Method := do
  if !([1, 2].contains (← numberAt extra 0 2)) then throw .badRecord
  if (← numberAt extra 2 2) != 0x4541 then throw .badRecord
  if !([1, 2, 3].contains (← numberAt extra 4 1)) then throw .badRecord
  pure (.ofNumber (← numberAt extra 5 2))

/-- The kind of the extra field that replaces full numbers. -/
def wideningKind : Nat := 1

/-- The kind of the extra field that describes an encryption. -/
def encryptingKind : Nat := 0x9901

/-- An entry after its extra fields. A field that is cut short ends them and does no harm. -/
def Entry.withExtra (entry : Entry) (extra : List UInt8) : Except Fault Entry :=
  match extra with
  | low :: high :: lowSize :: highSize :: extra =>
      let kind := valueOf [low, high]
      let size := valueOf [lowSize, highSize]
      if kind = wideningKind then
        match entry.widen extra with
        | (entry, none) => .ok entry
        | (entry, some rest) => entry.withExtra (extra.drop (max size (extra.length - rest.length)))
      else if kind = encryptingKind then
        if size != 7 then .error .badRecord
        else if extra.length < 7 then .ok entry
        else
          match encryptedMethod extra with
          | .error fault => .error fault
          | .ok method =>
              { entry with method, isSealed := true }.withExtra (extra.drop (7 + size))
      else entry.withExtra (extra.drop size)
  | _ => .ok entry
termination_by extra.length
decreasing_by all_goals simp only [List.length_drop, List.length_cons]; omega

/-- The entry that a record of the directory describes, and where the next record begins. `shift` is
what stands before the archive. -/
def directoryEntry (bytes : List UInt8) (shift position : Nat) : Except Fault (Entry × Nat) := do
  if (← bytesAt bytes position 4) != directoryMark then throw .badRecord
  let flags ← numberAt bytes (position + 8) 2
  let method ← numberAt bytes (position + 10) 2
  let nameSize ← numberAt bytes (position + 28) 2
  let extraSize ← numberAt bytes (position + 30) 2
  let commentSize ← numberAt bytes (position + 32) 2
  let name ← bytesAt bytes (position + 46) nameSize
  let extra ← bytesAt bytes (position + 46 + nameSize) extraSize
  let _ ← bytesAt bytes (position + 46 + nameSize + extraSize) commentSize
  let text := if flags.testBit 11 then Text.Utf8.decodeLossy name else name.map characterOf
  let plain : Entry :=
    { name := String.ofList text
      method := .ofNumber method
      isEncrypted := flags.testBit 0
      isSealed := false
      checksum := ← numberAt bytes (position + 16) 4
      size := ← numberAt bytes (position + 24) 4
      storedSize := ← numberAt bytes (position + 20) 4
      start := ← numberAt bytes (position + 42) 4 }
  let entry ← plain.withExtra extra
  if entry.method = .unknown encryptingMethod && !entry.isSealed then throw .encrypted
  if entry.start + shift ≥ offsetLimit then throw .badOffset
  pure ({ entry with start := entry.start + shift },
    position + 46 + nameSize + extraSize + commentSize)

def directoryEntries (bytes : List UInt8) (shift : Nat) :
    (count : Nat) → (position : Nat) → Except Fault (List Entry)
  | 0, _ => .ok []
  | count + 1, position => do
      let (entry, next) ← directoryEntry bytes shift position
      pure (entry :: (← directoryEntries bytes shift count next))

end Stubwright.Archive
