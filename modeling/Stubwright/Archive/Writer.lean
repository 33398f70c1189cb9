import Stubwright.Archive.Basic
import Stubwright.Archive.Deflate

/-!
Writing an archive with one entry, deflated. The end record takes a large one before it where the
directory begins too far behind; the entry itself has to do without large numbers.
-/
namespace Stubwright.Archive

/-- The version that the writer claims for itself. -/
def writerVersion : Nat := 46

/-- The mode of a regular file that everyone may read, as an entry made on Unix has it. -/
def entryMode : Nat := 0o100644

/-- A name outside ASCII is marked as UTF-8. -/
def nameFlags (name : List UInt8) : Nat :=
  if name.all (·.toNat < 128) then 0 else Nat.pow 2 11

section

variable (deflater : Deflater) (name content : List UInt8)

/-- What the header of an entry and its directory record have in common. -/
def description : List UInt8 :=
  fieldOf 2 20 ++ fieldOf 2 (nameFlags name) ++ fieldOf 2 8 ++ fieldOf 2 0 ++ fieldOf 2 33
    ++ fieldOf 4 (checksum content).toNat ++ fieldOf 4 (deflater.deflate content).length
    ++ fieldOf 4 content.length ++ fieldOf 2 name.length ++ fieldOf 2 0

def localRecord : List UInt8 :=
  localMark ++ description deflater name content ++ name ++ deflater.deflate content

def directoryRecord : List UInt8 :=
  directoryMark ++ fieldOf 2 (3 * 256 + writerVersion) ++ description deflater name content
    ++ fieldOf 2 0 ++ fieldOf 2 0 ++ fieldOf 2 0 ++ fieldOf 4 (entryMode * 65536) ++ fieldOf 4 0
    ++ name

end

section

variable (directorySize directoryStart : Nat)

def largeEndRecordOf : List UInt8 :=
  largeEndMark ++ fieldOf 8 44 ++ fieldOf 2 writerVersion ++ fieldOf 2 writerVersion ++ fieldOf 4 0
    ++ fieldOf 4 0 ++ fieldOf 8 1 ++ fieldOf 8 1 ++ fieldOf 8 directorySize
    ++ fieldOf 8 directoryStart

def locatorOf : List UInt8 :=
  locatorMark ++ fieldOf 4 0 ++ fieldOf 8 (directoryStart + directorySize) ++ fieldOf 4 1

/-- The large end record and its locator, if the end record has no room for its numbers. -/
def largeRecords : List UInt8 :=
  if max directorySize directoryStart ≤ fullNumber then []
  else largeEndRecordOf directorySize directoryStart ++ locatorOf directorySize directoryStart

def endRecordOf : List UInt8 :=
  endMark ++ fieldOf 2 0 ++ fieldOf 2 0 ++ fieldOf 2 1 ++ fieldOf 2 1
    ++ fieldOf 4 (min directorySize fullNumber) ++ fieldOf 4 (min directoryStart fullNumber)
    ++ fieldOf 2 0

end

def sizeFits (bytes : List UInt8) : Bool :=
  bytes.length ≤ fullNumber

def fits (deflater : Deflater) (content : List UInt8) : Bool :=
  sizeFits content && sizeFits (deflater.deflate content)

def single (deflater : Deflater) (name : String) (content : List UInt8) : List UInt8 :=
  let spelled := Text.Utf8.encodeString name
  let first := localRecord deflater spelled content
  let directory := directoryRecord deflater spelled content
  first ++ directory ++ largeRecords directory.length first.length
    ++ endRecordOf directory.length first.length

end Stubwright.Archive
