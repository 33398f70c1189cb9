import Stubwright.Archive.Field

/-!
Deflated content. A stream is a sequence of blocks; a block holds bytes as they are, or symbols of
two prefix codes that stand for bytes and for repetitions of what is already there. Bits are taken
from the low end of each byte. A repetition may reach back to before the beginning, where zeros
stand.
-/
namespace Stubwright.Archive

abbrev Bits := List Bool

def bitsOfByte (byte : UInt8) : Bits :=
  (List.range 8).map byte.toNat.testBit

def bitsOf (bytes : List UInt8) : Bits :=
  bytes.flatMap bitsOfByte

/-- The first bit is the least significant. -/
def numberOfBits : Bits → Nat
  | [] => 0
  | bit :: rest => (if bit then 1 else 0) + 2 * numberOfBits rest

abbrev Taking (α : Type) := StateT Bits (Except Fault) α

def takeBits (count : Nat) : Taking Bits := fun bits =>
  let front := bits.take count
  if front.length = count then .ok (front, bits.drop count) else .error .badContent

def takeNumber (width : Nat) : Taking Nat :=
  numberOfBits <$> takeBits width

def toNextByte : Taking Unit := fun bits =>
  .ok ((), bits.drop (bits.length % 8))

/-- A prefix code in canonical form: how many symbols have each length from one bit on, and the
symbols by length and value. -/
structure Code where
  counts : List Nat
  symbols : Array Nat
deriving DecidableEq, Repr

namespace Code

def longest : Nat := 15

/-- The code in which each symbol has the given length; zero leaves it out. The lengths have to use
up every code word unless at most one symbol is left. -/
def ofLengths? (lengths : List Nat) : Option Code :=
  let sizes := (List.range longest).map (· + 1)
  let counts := sizes.map fun size => lengths.count size
  let used := (lengths.filter (· != 0)).length
  let filled := (sizes.zip counts).foldl
    (fun total (size, count) => total + count * Nat.pow 2 (longest - size)) 0
  if used > 1 && filled != Nat.pow 2 longest then none
  else
    let numbered := lengths.zipIdx
    let symbols := sizes.flatMap fun size =>
      numbered.filterMap fun (length, symbol) => if length = size then some symbol else none
    some ⟨counts, symbols.toArray⟩

/-- Words up to this length are looked up at once. -/
def quickLength : Nat := 10

/-- Reads one symbol. `word` is the code word so far, `size` its length with the bit to come,
`first` the lowest one of that length, and `index` the place of its symbol. A word that leaves the
only one of a code too long to be looked up at once counts as symbol zero. -/
def symbolIn (symbols : Array Nat) :
    (counts : List Nat) → (size word first index : Nat) → Taking Nat
  | [], _, _, _, _ => throw .badContent
  | count :: longer, size, word, first, index => do
      let word := word + (← takeNumber 1)
      if word < first + count then
        match symbols[index + (word - first)]? with
        | some symbol => pure symbol
        | none => throw .badContent
      else if symbols.size = 1 && size > quickLength && word = 1 then pure 0
      else symbolIn symbols longer (size + 1) (2 * word) (2 * (first + count)) (index + count)

def symbol (code : Code) : Taking Nat :=
  symbolIn code.symbols code.counts 1 0 0 0

end Code

def fixedCodes : Option (Code × Code) := do
  let literals ← Code.ofLengths?
    (List.replicate 144 8 ++ List.replicate 112 9 ++ List.replicate 24 7 ++ List.replicate 8 8)
  let distances ← Code.ofLengths? (List.replicate 32 5)
  pure (literals, distances)

/-- The order in which the lengths of the code for code lengths are written. -/
def lengthOrder : List Nat :=
  [16, 17, 18, 0, 8, 7, 9, 6, 10, 5, 11, 4, 12, 3, 13, 2, 14, 1, 15]

/-- Code lengths with their repetitions written out, until there are as many as asked for. -/
def codeLengths (code : Code) (count : Nat) :
    (steps : Nat) → (lengths : List Nat) → Taking (List Nat)
  | 0, _ => throw .badContent
  | steps + 1, lengths =>
      if lengths.length = count then pure lengths
      else if lengths.length > count then throw .badContent
      else do
        let symbol ← code.symbol
        if symbol < 16 then codeLengths code count steps (lengths ++ [symbol])
        else if symbol = 16 then
          match lengths.getLast? with
          | none => throw .badContent
          | some last =>
              let again ← takeNumber 2
              codeLengths code count steps (lengths ++ List.replicate (3 + again) last)
        else if symbol = 17 then
          let again ← takeNumber 3
          codeLengths code count steps (lengths ++ List.replicate (3 + again) 0)
        else
          let again ← takeNumber 7
          codeLengths code count steps (lengths ++ List.replicate (11 + again) 0)

def orCorrupt (code : Option α) : Taking α :=
  match code with
  | some code => pure code
  | none => throw .badContent

def ownCodes : Taking (Code × Code) := do
  let literalCount := (← takeNumber 5) + 257
  let distanceCount := (← takeNumber 5) + 1
  let lengthCount := (← takeNumber 4) + 4
  if literalCount > 286 || distanceCount > 30 then throw .badContent
  let written ← (lengthOrder.take lengthCount).mapM fun symbol => do
    pure (symbol, ← takeNumber 3)
  let lengthCode ← orCorrupt
    (Code.ofLengths? ((List.range 19).map fun symbol => (written.lookup symbol).getD 0))
  let total := literalCount + distanceCount
  let lengths ← codeLengths lengthCode total (total + 1) []
  let literals ← orCorrupt (Code.ofLengths? (lengths.take literalCount))
  let distances ← orCorrupt (Code.ofLengths? (lengths.drop literalCount))
  pure (literals, distances)

/-- The least length of each length symbol, and how many bits tell what to add. -/
def lengthSteps : Array (Nat × Nat) :=
  #[(3, 0), (4, 0), (5, 0), (6, 0), (7, 0), (8, 0), (9, 0), (10, 0), (11, 1), (13, 1), (15, 1),
    (17, 1), (19, 2), (23, 2), (27, 2), (31, 2), (35, 3), (43, 3), (51, 3), (59, 3), (67, 4),
    (83, 4), (99, 4), (115, 4), (131, 5), (163, 5), (195, 5), (227, 5), (258, 0)]

/-- The least distance of each distance symbol, and how many bits tell what to add. -/
def distanceSteps : Array (Nat × Nat) :=
  #[(1, 0), (2, 0), (3, 0), (4, 0), (5, 1), (7, 1), (9, 2), (13, 2), (17, 3), (25, 3), (33, 4),
    (49, 4), (65, 5), (97, 5), (129, 6), (193, 6), (257, 7), (385, 7), (513, 8), (769, 8),
    (1025, 9), (1537, 9), (2049, 10), (3073, 10), (4097, 11), (6145, 11), (8193, 12),
    (12289, 12), (16385, 13), (24577, 13)]

def stepped (table : Array (Nat × Nat)) (symbol : Nat) : Taking Nat :=
  match table[symbol]? with
  | none => throw .badContent
  | some (least, width) => do pure (least + (← takeNumber width))

def repeatBack (distance : Nat) : (count : Nat) → Array UInt8 → Array UInt8
  | 0, output => output
  | count + 1, output =>
      let byte := if distance ≤ output.size then output.getD (output.size - distance) 0 else 0
      repeatBack distance count (output.push byte)

inductive Step where
  | literal (byte : UInt8)
  | repetition (distance count : Nat)
  | blockEnd

def nextStep (literals distances : Code) : Taking Step := do
  let symbol ← literals.symbol
  if symbol < 256 then pure (.literal (UInt8.ofNat symbol))
  else if symbol = 256 then pure .blockEnd
  else
    let count ← stepped lengthSteps (symbol - 257)
    let distance ← stepped distanceSteps (← distances.symbol)
    pure (.repetition distance count)

/-- The symbols of a block, of which each takes at least one bit. -/
def codedBlock (literals distances : Code) : (steps : Nat) → Array UInt8 → Taking (Array UInt8)
  | 0, _ => throw .badContent
  | steps + 1, output => do
      match ← nextStep literals distances with
      | .literal byte => codedBlock literals distances steps (output.push byte)
      | .blockEnd => pure output
      | .repetition distance count =>
          codedBlock literals distances steps (repeatBack distance count output)

def storedBlock (output : Array UInt8) : Taking (Array UInt8) := do
  toNextByte
  let length ← takeNumber 16
  let inverse ← takeNumber 16
  if length + inverse != 65535 then throw .badContent
  (List.range length).foldlM (fun output _ => do
    pure (output.push (UInt8.ofNat (← takeNumber 8)))) output

def block (kind : Nat) (output : Array UInt8) : Taking (Array UInt8) := do
  if kind = 0 then storedBlock output
  else
    let (literals, distances) ←
      if kind = 1 then orCorrupt fixedCodes
      else if kind = 2 then ownCodes
      else throw .badContent
    codedBlock literals distances ((← get).length + 1) output

def blocks : (steps : Nat) → Array UInt8 → Taking (Array UInt8)
  | 0, _ => throw .badContent
  | steps + 1, output => do
      let isLast := (← takeNumber 1) = 1
      let output ← block (← takeNumber 2) output
      if isLast then pure output else blocks steps output

/-- The content of a deflated stream, up to the end of its last block. -/
def inflate (bytes : List UInt8) : Except Fault (List UInt8) :=
  let bits := bitsOf bytes
  ((blocks (bits.length + 1) #[]).run bits).map (·.1.toList)

end Stubwright.Archive
