import Stubwright.Archive.Inflate

/-!
Compressing. A compressor may choose among many streams for one content; what counts is that reading
gives the content back. The simplest one writes a single block, with each byte as a symbol of the
fixed code, which is what others do as well with short contents in which nothing is repeated.
-/
namespace Stubwright.Archive

structure Deflater where
  deflate : List UInt8 → List UInt8
  inflates : ∀ content, inflate (deflate content) = .ok content

/-- The bits of a code word come with the most significant one first. -/
def codeWord (width number : Nat) : Bits :=
  ((List.range width).map number.testBit).reverse

def literalWord (byte : UInt8) : Bits :=
  if byte.toNat < 144 then codeWord 8 (48 + byte.toNat) else codeWord 9 (256 + byte.toNat)

def endWord : Bits :=
  codeWord 7 0

/-- As many bytes as asked for, with these bits; zeros fill up what is left. -/
def bytesOfBits : (count : Nat) → Bits → List UInt8
  | 0, _ => []
  | count + 1, bits =>
      UInt8.ofNat (numberOfBits (bits.take 8)) :: bytesOfBits count (bits.drop 8)

/-- The bits of a last block that uses the fixed codes. -/
def literalBlock (content : List UInt8) : Bits :=
  true :: true :: false :: (content.flatMap literalWord ++ endWord)

def deflateLiterals (content : List UInt8) : List UInt8 :=
  let bits := literalBlock content
  bytesOfBits ((bits.length + 7) / 8) bits

theorem testBit_numberOfBits (bits : Bits) (index : Nat) :
    (numberOfBits bits).testBit index = bits[index]?.getD false := by
  induction bits generalizing index with
  | nil => simp [numberOfBits]
  | cons bit rest ih =>
      cases index with
      | zero => cases bit <;> simp [numberOfBits, Nat.testBit_zero]
      | succ index =>
          have half : numberOfBits (bit :: rest) / 2 = numberOfBits rest := by
            rw [numberOfBits]
            split <;> omega
          rw [Nat.testBit_succ, half, ih, List.getElem?_cons_succ]

theorem numberOfBits_lt (bits : Bits) : numberOfBits bits < Nat.pow 2 bits.length := by
  induction bits with
  | nil => decide
  | cons bit rest ih =>
      have power : Nat.pow 2 (rest.length + 1) = 2 * Nat.pow 2 rest.length := Nat.pow_succ'
      rw [List.length_cons, power, numberOfBits]
      split <;> omega

/-- A byte has the bits that it is made of, and zeros behind them. -/
theorem bitsOfByte_ofNat {bits : Bits} (few : bits.length ≤ 8) :
    bitsOfByte (UInt8.ofNat (numberOfBits bits)) =
      bits ++ List.replicate (8 - bits.length) false := by
  have small : numberOfBits bits < 256 :=
    Nat.lt_of_lt_of_le (numberOfBits_lt bits) (Nat.pow_le_pow_right (by decide) few)
  have number : (UInt8.ofNat (numberOfBits bits)).toNat = numberOfBits bits := by
    rw [UInt8.toNat_ofNat', Nat.mod_eq_of_lt small]
  rw [bitsOfByte, number]
  refine List.ext_getElem (by simp; omega) fun index inside _ => ?_
  rw [List.getElem_map, List.getElem_range, testBit_numberOfBits, List.getElem_append]
  split
  · rename_i among
    rw [List.getElem?_eq_getElem among, Option.getD_some]
  · rename_i behind
    rw [List.getElem?_eq_none (Nat.le_of_not_lt behind), List.getElem_replicate, Option.getD_none]

theorem bitsOf_bytesOfBits {count : Nat} {bits : Bits} (enough : bits.length ≤ 8 * count) :
    ∃ padding, bitsOf (bytesOfBits count bits) = bits ++ padding := by
  induction count generalizing bits with
  | zero =>
      have empty : bits = [] := List.length_eq_zero_iff.mp (by omega)
      exact ⟨[], by rw [empty]; rfl⟩
  | succ count ih =>
      have size : (bits.take 8).length = min 8 bits.length := List.length_take
      have few : (bits.take 8).length ≤ 8 := by omega
      have others : (bits.drop 8).length ≤ 8 * count := by
        rw [List.length_drop]
        omega
      have byte := bitsOfByte_ofNat few
      obtain ⟨padding, packed⟩ := ih others
      have front : bitsOf (bytesOfBits (count + 1) bits) =
          bits.take 8 ++ List.replicate (8 - (bits.take 8).length) false ++
            (bits.drop 8 ++ padding) := by
        rw [bytesOfBits, bitsOf, List.flatMap_cons, byte, ← bitsOf, packed]
      by_cases long : 8 ≤ bits.length
      · have whole : 8 - (bits.take 8).length = 0 := by omega
        refine ⟨padding, ?_⟩
        rw [front, whole, List.replicate_zero, List.append_nil, ← List.append_assoc,
          List.take_append_drop]
      · have short : bits.length ≤ 8 := by omega
        rw [List.take_of_length_le short, List.drop_of_length_le short, List.append_assoc] at front
        exact ⟨_, front⟩

/-- The reader takes exactly these bits off its input and gives this value for them. -/
def Takes (reader : Taking α) (bits : Bits) (value : α) : Prop :=
  ∀ rest, reader.run (bits ++ rest) = .ok (value, rest)

namespace Takes

variable {reader : Taking α} {next : α → Taking β} {bits more : Bits} {value : α} {result : β}

theorem pure (value : α) : Takes (Pure.pure value) [] value := by
  intro rest
  rfl

theorem bind (first : Takes reader bits value) (second : Takes (next value) more result) :
    Takes (reader >>= next) (bits ++ more) result := by
  intro rest
  rw [StateT.run_bind, List.append_assoc, first]
  exact second rest

/-- A last step that takes nothing. -/
theorem bind_end (first : Takes reader bits value) (second : Takes (next value) [] result) :
    Takes (reader >>= next) bits result := by
  have both := first.bind second
  rwa [List.append_nil] at both

end Takes

theorem takes_number (bits : Bits) :
    Takes (takeNumber bits.length) bits (numberOfBits bits) := by
  intro rest
  have taken : (takeBits bits.length).run (bits ++ rest) = .ok (bits, rest) := by
    simp [takeBits, StateT.run]
  rw [takeNumber, StateT.run_map, taken]
  rfl

theorem codeWord_succ (width number : Nat) :
    codeWord (width + 1) number = number.testBit width :: codeWord width number := by
  rw [codeWord, codeWord, List.range_succ, List.map_append, List.reverse_append]
  rfl

theorem numberOfBits_testBit (number index : Nat) :
    numberOfBits [number.testBit index] = number / Nat.pow 2 index % 2 := by
  have parity : number.testBit index = decide (number / Nat.pow 2 index % 2 = 1) :=
    Nat.testBit_eq_decide_div_mod_eq
  rw [parity]
  rcases Nat.mod_two_eq_zero_or_one (number / Nat.pow 2 index) with even | odd
  · rw [even]
    rfl
  · rw [odd]
    rfl

/-- One bit of a word: the search ends among the words of this length or goes on with longer ones.
-/
theorem run_symbolIn {symbols : Array Nat} (several : symbols.size ≠ 1) (count : Nat)
    (longer : List Nat) (size first index width number : Nat) (rest : Bits) :
    (Code.symbolIn symbols (count :: longer) size (2 * (number / Nat.pow 2 (width + 1))) first
        index).run (codeWord (width + 1) number ++ rest) =
      if number / Nat.pow 2 width < first + count then
        (orCorrupt symbols[index + (number / Nat.pow 2 width - first)]?).run
          (codeWord width number ++ rest)
      else
        (Code.symbolIn symbols longer (size + 1) (2 * (number / Nat.pow 2 width))
          (2 * (first + count)) (index + count)).run (codeWord width number ++ rest) := by
  have bit : (takeNumber 1).run (codeWord (width + 1) number ++ rest) =
      .ok (numberOfBits [number.testBit width], codeWord width number ++ rest) := by
    rw [codeWord_succ]
    exact takes_number [number.testBit width] (codeWord width number ++ rest)
  have half : number / Nat.pow 2 (width + 1) = number / Nat.pow 2 width / 2 := by
    rw [Nat.div_div_eq_div_mul]
    rfl
  have word : 2 * (number / Nat.pow 2 (width + 1)) + numberOfBits [number.testBit width] =
      number / Nat.pow 2 width := by
    rw [half, numberOfBits_testBit]
    exact Nat.div_add_mod _ 2
  have notLone : ¬ (decide (symbols.size = 1) && decide (size > Code.quickLength) &&
      decide (number / Nat.pow 2 width = 1)) = true := by
    simp [several]
  rw [Code.symbolIn, StateT.run_bind, bit]
  dsimp only [bind, Except.bind]
  rw [word, if_neg notLone]
  split
  · cases symbols[index + (number / Nat.pow 2 width - first)]? <;> rfl
  · rfl

/-- The fixed code of bytes and lengths: 24 words of seven bits, 152 of eight and 112 of nine. -/
def literalCode : Code where
  counts := [0, 0, 0, 0, 0, 0, 24, 152, 112, 0, 0, 0, 0, 0, 0]
  symbols :=
    (List.range' 256 24 ++ List.range 144 ++ List.range' 280 8 ++ List.range' 144 112).toArray

theorem fixedCodes_eq : ∃ distances, fixedCodes = some (literalCode, distances) := by
  have known : fixedCodes.map (fun codes => (codes.1.counts, codes.1.symbols.toList)) =
      some (literalCode.counts, literalCode.symbols.toList) := by
    decide +kernel
  obtain ⟨⟨literals, distances⟩, same, equal⟩ := Option.map_eq_some_iff.mp known
  obtain ⟨counts, symbols⟩ := literals
  obtain ⟨rfl, list⟩ := Prod.mk.inj equal
  obtain rfl := Array.toList_inj.mp list
  exact ⟨distances, same⟩

theorem several_literals : literalCode.symbols.size ≠ 1 := by decide +kernel

/-- Where no word has fewer than seven bits, the search starts there. -/
theorem run_symbolIn_long {symbols : Array Nat} (several : symbols.size ≠ 1) (longer : List Nat)
    {width number : Nat} (fits : number < Nat.pow 2 (width + 6)) (rest : Bits) :
    (Code.symbolIn symbols (List.replicate 6 0 ++ longer) 1 0 0 0).run
        (codeWord (width + 6) number ++ rest) =
      (Code.symbolIn symbols longer 7 (2 * (number / Nat.pow 2 width)) 0 0).run
        (codeWord width number ++ rest) := by
  have skip (others : List Nat) (size width : Nat) :
      (Code.symbolIn symbols (0 :: others) size (2 * (number / Nat.pow 2 (width + 1))) 0 0).run
          (codeWord (width + 1) number ++ rest) =
        (Code.symbolIn symbols others (size + 1) (2 * (number / Nat.pow 2 width)) 0 0).run
          (codeWord width number ++ rest) := by
    rw [run_symbolIn several, if_neg (Nat.not_lt_zero _)]
  have steps := (skip (0 :: 0 :: 0 :: 0 :: 0 :: longer) 1 (width + 5)).trans
    ((skip (0 :: 0 :: 0 :: 0 :: longer) 2 (width + 4)).trans
      ((skip (0 :: 0 :: 0 :: longer) 3 (width + 3)).trans
        ((skip (0 :: 0 :: longer) 4 (width + 2)).trans
          ((skip (0 :: longer) 5 (width + 1)).trans (skip longer 6 width)))))
  rwa [Nat.div_eq_of_lt fits] at steps

theorem run_literalCode {width number : Nat} (fits : number < Nat.pow 2 (width + 7)) (rest : Bits) :
    literalCode.symbol.run (codeWord (width + 7) number ++ rest) =
      if number / Nat.pow 2 width < 24 then
        (orCorrupt literalCode.symbols[number / Nat.pow 2 width]?).run
          (codeWord width number ++ rest)
      else
        (Code.symbolIn literalCode.symbols [152, 112, 0, 0, 0, 0, 0, 0] 8
          (2 * (number / Nat.pow 2 width)) 48 24).run (codeWord width number ++ rest) := by
  have long := @run_symbolIn_long _ several_literals [24, 152, 112, 0, 0, 0, 0, 0, 0]
    (width + 1) number fits rest
  have seven :=
    run_symbolIn several_literals 24 [152, 112, 0, 0, 0, 0, 0, 0] 7 0 0 width number rest
  rw [Nat.zero_add, Nat.zero_add, Nat.sub_zero] at seven
  exact long.trans seven

theorem takes_end : Takes literalCode.symbol endWord 256 := by
  intro rest
  have symbol : literalCode.symbols[0]? = some 256 := by decide +kernel
  have first : 0 / Nat.pow 2 0 < 24 := by decide
  have fits : 0 < Nat.pow 2 (0 + 7) := by decide
  have read := run_literalCode fits rest
  rw [if_pos first, Nat.zero_div, symbol] at read
  exact read

theorem literalCode_short {number : Nat} (low : number < 144) :
    literalCode.symbols[24 + number]? = some number := by
  simp [literalCode, List.getElem?_append, low]

theorem literalCode_long {number : Nat} (low : number < 112) :
    literalCode.symbols[176 + number]? = some (144 + number) := by
  have place : 176 + number - (24 + 144 + 8) = number := by omega
  simp only [literalCode, List.getElem?_toArray, List.getElem?_append, List.length_append,
    List.length_range', List.length_range]
  rw [if_neg (by omega), place, List.getElem?_range' low, Nat.one_mul]

theorem takes_literal (byte : UInt8) :
    Takes literalCode.symbol (literalWord byte) byte.toNat := by
  intro rest
  have small := byte.toNat_lt
  rw [literalWord]
  split
  · rename_i low
    have fits : 48 + byte.toNat < Nat.pow 2 (1 + 7) := by
      change _ < 256
      omega
    have seven : ¬ (48 + byte.toNat) / Nat.pow 2 1 < 24 := by
      change ¬ (48 + byte.toNat) / 2 < 24
      omega
    have eight : (48 + byte.toNat) / Nat.pow 2 0 < 48 + 152 := by
      change (48 + byte.toNat) / 1 < 200
      omega
    have place : 24 + ((48 + byte.toNat) / Nat.pow 2 0 - 48) = 24 + byte.toNat := by
      change 24 + ((48 + byte.toNat) / 1 - 48) = _
      omega
    have read := run_literalCode fits rest
    rw [if_neg seven, run_symbolIn several_literals, if_pos eight, place,
      literalCode_short low] at read
    exact read
  · rename_i high
    have same : 144 + (byte.toNat - 144) = byte.toNat := by omega
    have fits : 256 + byte.toNat < Nat.pow 2 (2 + 7) := by
      change _ < 512
      omega
    have seven : ¬ (256 + byte.toNat) / Nat.pow 2 2 < 24 := by
      change ¬ (256 + byte.toNat) / 4 < 24
      omega
    have eight : ¬ (256 + byte.toNat) / Nat.pow 2 1 < 48 + 152 := by
      change ¬ (256 + byte.toNat) / 2 < 200
      omega
    have nine : (256 + byte.toNat) / Nat.pow 2 0 < 2 * (48 + 152) + 112 := by
      change (256 + byte.toNat) / 1 < 512
      omega
    have place : 24 + 152 + ((256 + byte.toNat) / Nat.pow 2 0 - 2 * (48 + 152)) =
        176 + (byte.toNat - 144) := by
      change 176 + ((256 + byte.toNat) / 1 - 400) = _
      omega
    have read := run_literalCode fits rest
    rw [if_neg seven, run_symbolIn several_literals, if_neg eight, run_symbolIn several_literals,
      if_pos nine, place, literalCode_long (by omega), same] at read
    exact read

theorem takes_step (distances : Code) (byte : UInt8) :
    Takes (nextStep literalCode distances) (literalWord byte) (.literal byte) := by
  refine (takes_literal byte).bind_end ?_
  rw [if_pos byte.toNat_lt, UInt8.ofNat_toNat]
  exact .pure _

theorem takes_blockEnd (distances : Code) :
    Takes (nextStep literalCode distances) endWord .blockEnd :=
  takes_end.bind_end (.pure _)

/-- Each byte takes a step of the block, and its end takes one more. -/
theorem takes_codedBlock (distances : Code) {content : List UInt8} {steps : Nat}
    (enough : content.length < steps) (output : Array UInt8) :
    Takes (codedBlock literalCode distances steps output)
      (content.flatMap literalWord ++ endWord) (output ++ content.toArray) := by
  induction content generalizing steps output with
  | nil =>
      cases steps with
      | zero => cases enough
      | succ steps =>
          refine (takes_blockEnd distances).bind_end ?_
          simpa using Takes.pure output
  | cons byte content ih =>
      cases steps with
      | zero => cases enough
      | succ steps =>
          have rest := ih (Nat.lt_of_succ_lt_succ enough) (output.push byte)
          have joined : output.push byte ++ content.toArray =
              output ++ (byte :: content).toArray := by
            simp
          rw [joined] at rest
          rw [List.flatMap_cons, List.append_assoc]
          exact (takes_step distances byte).bind rest

theorem length_literalWord (byte : UInt8) : 8 ≤ (literalWord byte).length := by
  rw [literalWord]
  split <;> simp [codeWord]

theorem length_le_literalBlock (content : List UInt8) :
    content.length ≤ (content.flatMap literalWord ++ endWord).length := by
  rw [List.length_append]
  induction content with
  | nil => simp
  | cons byte content ih =>
      have word := length_literalWord byte
      rw [List.flatMap_cons, List.length_append, List.length_cons]
      omega

/-- There are steps enough, since each of the bits that are left would allow one. -/
theorem takes_block (content : List UInt8) :
    Takes (block 1 #[]) (content.flatMap literalWord ++ endWord) content.toArray := by
  intro rest
  obtain ⟨distances, codes⟩ := fixedCodes_eq
  have enough : content.length <
      ((content.flatMap literalWord ++ endWord) ++ rest).length + 1 := by
    have word := length_le_literalBlock content
    rw [List.length_append]
    omega
  have read := takes_codedBlock distances enough #[] rest
  rw [Array.empty_append] at read
  rw [block, if_neg (by decide), if_pos rfl, codes]
  exact read

theorem takes_blocks (content : List UInt8) (steps : Nat) :
    Takes (blocks (steps + 1) #[]) (literalBlock content) content.toArray := by
  refine (takes_number [true]).bind ((takes_number [true, false]).bind
    ((takes_block content).bind_end ?_))
  exact .pure _

theorem inflate_deflateLiterals (content : List UInt8) :
    inflate (deflateLiterals content) = .ok content := by
  have enough : (literalBlock content).length ≤ 8 * (((literalBlock content).length + 7) / 8) := by
    omega
  obtain ⟨padding, bits⟩ := bitsOf_bytesOfBits enough
  have read := takes_blocks content (literalBlock content ++ padding).length padding
  rw [inflate, deflateLiterals, bits, read]
  rfl

def Deflater.literal : Deflater where
  deflate := deflateLiterals
  inflates := inflate_deflateLiterals

end Stubwright.Archive
