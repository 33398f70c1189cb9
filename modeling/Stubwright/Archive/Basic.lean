import Stubwright.Archive.Checksum
import Stubwright.Archive.DirectoryRecord
import Stubwright.Archive.Inflate

/-!
Archives of named entries. The directory of an archive stands at its end and says where each entry
begins; what comes before the first entry does not count. Of two entries with one name the later
wins.
-/
namespace Stubwright

structure Archive where
  bytes : List UInt8
  entries : List Archive.Entry
deriving Repr

namespace Archive

def localMark : List UInt8 := [0x50, 0x4b, 0x03, 0x04]

def ofBytes (bytes : List UInt8) : Except Fault Archive := do
  let directory ← whereabouts bytes
  pure ⟨bytes, ← directoryEntries bytes directory.shift directory.count directory.start⟩

def stored? (archive : Archive) (name : String) : Option Entry :=
  archive.entries.reverse.find? (·.name == name)

/-- The bytes that an entry stores, after the header in front of them. -/
def storedContent (archive : Archive) (entry : Entry) : Except Fault (List UInt8) := do
  if entry.start ≥ placeLimit then throw .outOfReach
  if (← bytesAt archive.bytes entry.start 4) != localMark then throw .badRecord
  let nameSize ← numberAt archive.bytes (entry.start + 26) 2
  let extraSize ← numberAt archive.bytes (entry.start + 28) 2
  pure ((archive.bytes.drop (entry.start + 30 + nameSize + extraSize)).take entry.storedSize)

def content (archive : Archive) (entry : Entry) : Except Fault (List UInt8) := do
  if entry.isEncrypted || entry.isSealed then throw .encrypted
  let stored ← archive.storedContent entry
  let content ←
    match entry.method with
    | .stored => pure stored
    | .deflated => inflate stored
    | .unknown _ => throw .unknownMethod
  if (Archive.checksum content).toNat = entry.checksum then pure content else throw .badChecksum

/-- Everything in an archive, by name and in order, if all of it can be read. -/
def contents (archive : Archive) : Except Fault (List (String × List UInt8)) :=
  archive.entries.mapM fun entry => do
    pure (entry.name, ← archive.content entry)

end Archive

end Stubwright
