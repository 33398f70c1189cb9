import Stubwright.Proofs.Text.Utf16
import Stubwright.Text.ModifiedUtf8

/-!
Reading what was written, for the strings of class files. The decoder takes one character off the
front of whatever follows it, in one code unit or in two, and stops at a surrogate without its
partner. Plain UTF-8 is tried first; it agrees on the characters that both encodings write alike,
and it refuses the two-byte form of U+0000 and the surrogates, so that it never reads a string as
another text.
-/
namespace Stubwright.Text

namespace ModifiedUtf8

open Utf8 Utf16

/-- The characters that modified UTF-8 writes as plain UTF-8 does. -/
def IsPlain (c : Char) : Prop :=
  c.toNat ≠ 0 ∧ c.toNat < 0x10000

theorem encodeUnit_plain {unit : UInt16} {c : Char} (code : c.toNat = unit.toNat)
    (nonzero : unit.toNat ≠ 0) : encodeUnit unit = String.utf8EncodeChar c := by
  have value : c.val.toNat = unit.toNat := code
  have small := unit.toNat_lt
  rw [encodeUnit, if_neg nonzero, String.utf8EncodeChar, value]
  by_cases one : unit.toNat < 0x80
  · rw [if_pos one, if_pos (by omega)]
  by_cases two : unit.toNat < 0x800
  · have lead : 0xc0 + unit.toNat / 64 = unit.toNat / 64 % 32 + 192 := by omega
    rw [if_neg one, if_pos two, if_neg (by omega), if_pos (by omega), lead, Nat.add_comm 0x80]
  · have lead : 0xe0 + unit.toNat / 4096 = unit.toNat / 4096 % 16 + 224 := by omega
    rw [if_neg one, if_neg two, if_neg (by omega), if_neg (by omega), if_pos (by omega), lead,
      Nat.add_comm 0x80, Nat.add_comm 0x80]

/-- The second byte tells a high surrogate from a low one. -/
theorem encodeUnit_surrogate {unit : UInt16} (surrogate : IsHigh unit ∨ IsLow unit) :
    ∃ b d, encodeUnit unit = [0xed, b, d] ∧ b.toNat = 0x80 + unit.toNat / 64 % 64 ∧
      d.toNat = 0x80 + unit.toNat % 64 ∧ isContinuation b = true ∧ isContinuation d = true ∧
        within 0xa0 0xbf b = true := by
  simp only [IsHigh, IsLow] at surrogate
  have second := toNat_byte (show 0x80 + unit.toNat / 64 % 64 < 256 by omega)
  have third := toNat_byte (show 0x80 + unit.toNat % 64 < 256 by omega)
  have lead : 0xe0 + unit.toNat / 4096 = 0xed := by omega
  have spelled : encodeUnit unit =
      [0xed, UInt8.ofNat (0x80 + unit.toNat / 64 % 64), UInt8.ofNat (0x80 + unit.toNat % 64)] := by
    rw [encodeUnit, if_neg (by omega), if_neg (by omega), if_neg (by omega), lead]
    rfl
  refine ⟨_, _, spelled, second, third, ?_, ?_, ?_⟩
  · rw [isContinuation_iff, second]
    omega
  · rw [isContinuation_iff, third]
    omega
  · rw [within_iff, second]
    omega

theorem within_surrogateLead : within 1 0x7f 0xed = false ∧ within 0xc2 0xdf 0xed = false ∧
    within 0xe0 0xef 0xed = true :=
  ⟨rfl, rfl, rfl⟩

theorem not_isSecond_surrogate {second : UInt8} (high : within 0xa0 0xbf second = true) :
    isSecond 0xed second = false := by
  have lead : (0xed : UInt8).toNat = 0xed := rfl
  rw [within_iff] at high
  rw [Bool.eq_false_iff, Ne, isSecond_iff]
  omega

/-- Plain UTF-8 reads no code unit that modified UTF-8 writes in a way of its own. -/
theorem plainDecode?_special {unit : UInt16}
    (special : unit.toNat = 0 ∨ IsHigh unit ∨ IsLow unit) (rest : List UInt8) :
    Utf8.decode? (encodeUnit unit ++ rest) = none := by
  rcases special with zero | surrogate
  · have refused : front 0xc0 ([0x80] ++ rest) = (none, 0) := rfl
    rw [encodeUnit, if_pos zero, List.cons_append, Utf8.decode?, refused]
  · obtain ⟨b, d, spelled, -, -, -, -, high⟩ := encodeUnit_surrogate surrogate
    have refused : front 0xed (b :: d :: rest) = (none, 0) := by
      have ascii : within 0 0x7f 0xed = false := rfl
      have short : within 0xc2 0xdf 0xed = false := rfl
      have lead : within 0xe0 0xef 0xed = true := rfl
      simp [front, ascii, short, lead, not_isSecond_surrogate high]
    simp only [spelled, List.cons_append, List.nil_append]
    rw [Utf8.decode?, refused]

/-- Plain UTF-8 either reads a string of a class file right or not at all. -/
theorem plainDecode?_encode (units : List UInt16) :
    Utf8.decode? (encode units) = Utf16.decode? units ∨ Utf8.decode? (encode units) = none := by
  induction units with
  | nil => exact .inl Utf8.decode?_nil
  | cons unit units ih =>
      have front : encode (unit :: units) = encodeUnit unit ++ encode units := rfl
      rw [front]
      by_cases special : unit.toNat = 0 ∨ IsHigh unit ∨ IsLow unit
      · exact .inr (plainDecode?_special special _)
      · obtain ⟨nonzero, neither⟩ := not_or.mp special
        obtain ⟨known, code⟩ := single_eq neither
        have alone : characters (unit :: units) = single unit :: characters units :=
          characters_of_not_pair fun high => absurd (Or.inl high) neither
        rw [known] at alone
        rw [encodeUnit_plain code nonzero, Utf8.decode?_encodeChar_append, decode?_of_some alone]
        rcases ih with read | refused
        · exact .inl (by rw [read])
        · exact .inr (by rw [refused, Option.map_none])

theorem decodeStrict?_plain {c : Char} (plain : IsPlain c) (rest : List UInt8) :
    decodeStrict? (String.utf8EncodeChar c ++ rest) = (decodeStrict? rest).map (c :: ·) := by
  by_cases one : c.toNat < 0x80
  · obtain ⟨a, spelled, same⟩ := encodeChar_one one
    have positive := plain.1
    have ascii : within 1 0x7f a = true := by
      rw [within_iff]
      omega
    have nonzero : a ≠ 0 := ne_of_within ascii (by decide) (by decide)
    simp only [spelled, List.cons_append, List.nil_append]
    rw [decodeStrict?.eq_def]
    simp [nonzero, ascii, same]
  by_cases two : c.toNat < 0x800
  · obtain ⟨a, b, spelled, lead, continued, code⟩ := encodeChar_two (Nat.le_of_not_lt one) two
    have nonzero : a ≠ 0 := ne_of_within lead (by decide) (by decide)
    have ascii : within 1 0x7f a = false := not_within lead (by decide)
    have notNull : a ≠ 0xc0 := ne_of_within lead (by decide) (by decide)
    simp only [spelled, List.cons_append, List.nil_append]
    rw [decodeStrict?.eq_def]
    simp [nonzero, ascii, notNull, lead, continued, code]
  · obtain ⟨a, b, d, spelled, lead, allowed, continued, ended, code⟩ :=
      encodeChar_three (Nat.le_of_not_lt two) plain.2
    have nonzero : a ≠ 0 := ne_of_within lead (by decide) (by decide)
    have ascii : within 1 0x7f a = false := not_within lead (by decide)
    have notNull : a ≠ 0xc0 := ne_of_within lead (by decide) (by decide)
    have short : within 0xc2 0xdf a = false := not_within lead (by decide)
    simp only [spelled, List.cons_append, List.nil_append]
    rw [decodeStrict?.eq_def]
    simp [nonzero, ascii, notNull, short, lead, continued, ended, allowed, code]

theorem decodeStrict?_single {unit : UInt16} (neither : ¬(IsHigh unit ∨ IsLow unit))
    (rest : List UInt8) :
    decodeStrict? (encodeUnit unit ++ rest) =
      (decodeStrict? rest).map (Char.ofNat unit.toNat :: ·) := by
  have code := (single_eq neither).2
  by_cases zero : unit.toNat = 0
  · have ascii : within 1 0x7f 0xc0 = false := rfl
    rw [encodeUnit, if_pos zero, zero]
    simp only [List.cons_append, List.nil_append]
    rw [decodeStrict?.eq_def]
    simp [ascii]
  · have plain : IsPlain (Char.ofNat unit.toNat) := by
      rw [IsPlain, code]
      exact ⟨zero, unit.toNat_lt⟩
    rw [encodeUnit_plain code zero]
    exact decodeStrict?_plain plain rest

theorem decodeStrict?_pair {high low : UInt16} (isHigh : IsHigh high) (isLow : IsLow low)
    (rest : List UInt8) :
    decodeStrict? (encodeUnit high ++ (encodeUnit low ++ rest)) =
      (decodeStrict? rest).map (pair high low :: ·) := by
  obtain ⟨h₁, h₂, highSpelled, high₁, high₂, first, second, surrogate⟩ :=
    encodeUnit_surrogate (.inl isHigh)
  obtain ⟨l₁, l₂, lowSpelled, low₁, low₂, -, fourth, -⟩ := encodeUnit_surrogate (.inr isLow)
  rw [IsHigh] at isHigh
  rw [IsLow] at isLow
  have highRange : within 0xa0 0xaf h₁ = true := by
    rw [within_iff, high₁]
    omega
  have lowRange : within 0xb0 0xbf l₁ = true := by
    rw [within_iff, low₁]
    omega
  have code : ofSurrogates h₁ h₂ l₁ l₂ = pair high low := by
    rw [ofSurrogates, pair, payload, payload, high₁, high₂, low₁, low₂]
    refine congrArg Char.ofNat ?_
    omega
  obtain ⟨ascii, short, lead⟩ := within_surrogateLead
  have refused := not_isSecond_surrogate surrogate
  simp only [highSpelled, lowSpelled, List.cons_append, List.nil_append]
  rw [decodeStrict?.eq_def]
  simp [ascii, short, lead, first, second, refused, highRange, lowRange, fourth, code]

/-- Only a low surrogate starts with the bytes that the reader wants behind a high one. -/
theorem not_low_lead {unit : UInt16} (other : ¬IsLow unit) {tail more : List UInt8} {d e : UInt8}
    (spelled : encodeUnit unit ++ tail = d :: e :: more) :
    ¬(d = 0xed ∧ within 0xb0 0xbf e = true) := by
  rintro ⟨rfl, range⟩
  have number : (0xed : UInt8).toNat = 0xed := rfl
  have small := unit.toNat_lt
  rw [IsLow] at other
  rw [within_iff] at range
  unfold encodeUnit at spelled
  split_ifs at spelled with zero one two
  · simp at spelled
  · have lead := (List.cons.inj spelled).1
    have value := toNat_byte (show unit.toNat < 256 by omega)
    rw [lead] at value
    omega
  · have lead := (List.cons.inj spelled).1
    have value := toNat_byte (show 0xc0 + unit.toNat / 64 < 256 by omega)
    rw [lead] at value
    omega
  · obtain ⟨lead, behind⟩ := List.cons.inj spelled
    have second := (List.cons.inj behind).1
    have value := toNat_byte (show 0xe0 + unit.toNat / 4096 < 256 by omega)
    have next := toNat_byte (show 0x80 + unit.toNat / 64 % 64 < 256 by omega)
    rw [lead] at value
    rw [second] at next
    omega

theorem decodeStrict?_lone {unit : UInt16} (surrogate : IsHigh unit ∨ IsLow unit)
    {units : List UInt16} (alone : IsHigh unit → ∀ second ∈ units.head?, ¬IsLow second) :
    decodeStrict? (encodeUnit unit ++ encode units) = none := by
  obtain ⟨b, d, spelled, value, -, first, second, range⟩ := encodeUnit_surrogate surrogate
  obtain ⟨ascii, short, lead⟩ := within_surrogateLead
  have notZero : (0xed : UInt8) ≠ 0 := by decide
  have notNull : (0xed : UInt8) ≠ 0xc0 := by decide
  have refused := not_isSecond_surrogate range
  simp only [spelled, List.cons_append, List.nil_append]
  rw [decodeStrict?.eq_def]
  simp only [notZero, notNull, reduceIte, ascii, Bool.false_eq_true, short, lead, first,
    Bool.not_true, second, Bool.or_self, refused, decide_true, Bool.true_and, Bool.and_eq_true,
    decide_eq_true_eq, ite_eq_right_iff]
  intro leading
  have isHigh : IsHigh unit := by
    rw [within_iff, value] at leading
    simp only [IsHigh, IsLow] at surrogate ⊢
    omega
  cases units with
  | nil => rfl
  | cons next units =>
      split
      · rename_i e f g more behind
        rw [if_neg fun both => not_low_lead (alone isHigh next rfl) behind both.1]
      · rfl

theorem decodeStrict?_encode_single {unit : UInt16} {units : List UInt16}
    (alone : IsHigh unit → ∀ second ∈ units.head?, ¬IsLow second)
    (rest : decodeStrict? (encode units) = Utf16.decode? units) :
    decodeStrict? (encode (unit :: units)) = Utf16.decode? (unit :: units) := by
  have front : encode (unit :: units) = encodeUnit unit ++ encode units := rfl
  have known := characters_of_not_pair alone
  by_cases surrogate : IsHigh unit ∨ IsLow unit
  · rw [single, if_pos surrogate] at known
    rw [front, decodeStrict?_lone surrogate alone, decode?_of_none known]
  · rw [(single_eq surrogate).1] at known
    rw [front, decodeStrict?_single surrogate, decode?_of_some known, rest]

theorem decodeStrict?_encode (units : List UInt16) :
    decodeStrict? (encode units) = Utf16.decode? units := by
  have empty : decodeStrict? (encode []) = Utf16.decode? [] := by
    simp [encode, decodeStrict?, Utf16.decode?, IsPaired, characters, text]
  induction units using characters.induct with
  | case1 => exact empty
  | case2 unit => exact decodeStrict?_encode_single (by simp) empty
  | case3 high low units pairs ih =>
      have front : encode (high :: low :: units) =
          encodeUnit high ++ (encodeUnit low ++ encode units) := rfl
      have known : characters (high :: low :: units) =
          some (pair high low) :: characters units := by
        rw [characters, if_pos pairs]
      rw [front, decodeStrict?_pair pairs.1 pairs.2, ih, decode?_of_some known]
  | case4 first second units apart ih =>
      refine decodeStrict?_encode_single (fun high second' same low => ?_) ih
      cases Option.some.inj same
      exact apart ⟨high, low⟩

/-- The reader gives back the text of the code units, and fails where a surrogate has no partner. -/
theorem decode?_encode (units : List UInt16) : decode? (encode units) = Utf16.decode? units := by
  rcases plainDecode?_encode units with read | refused
  · cases known : Utf16.decode? units with
    | some text => exact decode?_of_plain (read.trans known)
    | none =>
        rw [known] at read
        rw [decode?, read]
        exact (decodeStrict?_encode units).trans known
  · rw [decode?, refused]
    exact decodeStrict?_encode units

example : encode (Utf16.encode ['\x00', '𝄞']) =
    [0xc0, 0x80, 0xed, 0xa0, 0xb4, 0xed, 0xb4, 0x9e] := by decide

end ModifiedUtf8

end Stubwright.Text
