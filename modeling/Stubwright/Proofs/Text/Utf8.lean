import Mathlib.Tactic.SplitIfs
import Stubwright.Text.Utf8

namespace Stubwright.Text

theorem toNat_scalar (c : Char) : c.toNat < 0xd800 ∨ 0xdfff < c.toNat ∧ c.toNat < 0x110000 :=
  c.valid

theorem byte_eq_iff (byte : UInt8) (value : Nat) (small : value < 256) :
    byte = UInt8.ofNat value ↔ byte.toNat = value := by
  rw [← UInt8.toNat_inj, UInt8.toNat_ofNat', Nat.mod_eq_of_lt small]

namespace Utf8

theorem within_iff (low high : Nat) (byte : UInt8) :
    within low high byte = true ↔ low ≤ byte.toNat ∧ byte.toNat ≤ high := by
  simp [within]

theorem not_within {low high low' high' : Nat} {byte : UInt8} (inside : within low high byte = true)
    (apart : high' < low ∨ high < low') : within low' high' byte = false := by
  rw [within_iff] at inside
  rw [Bool.eq_false_iff, Ne, within_iff]
  omega

theorem ne_of_within {low high value : Nat} {byte : UInt8} (inside : within low high byte = true)
    (outside : value < low ∨ high < value) (small : value < 256) : byte ≠ UInt8.ofNat value := by
  rw [within_iff] at inside
  rw [Ne, byte_eq_iff byte value small]
  omega

theorem isContinuation_iff (byte : UInt8) :
    isContinuation byte = true ↔ 0x80 ≤ byte.toNat ∧ byte.toNat ≤ 0xbf :=
  within_iff _ _ _

theorem isSecond_iff (lead second : UInt8) :
    isSecond lead second = true ↔
      0x80 ≤ second.toNat ∧ second.toNat ≤ 0xbf ∧
        (lead.toNat = 0xe0 → 0xa0 ≤ second.toNat) ∧ (lead.toNat = 0xed → second.toNat ≤ 0x9f) ∧
        (lead.toNat = 0xf0 → 0x90 ≤ second.toNat) ∧ (lead.toNat = 0xf4 → second.toNat ≤ 0x8f) := by
  have e0 := byte_eq_iff lead 0xe0 (by decide)
  have ed := byte_eq_iff lead 0xed (by decide)
  have f0 := byte_eq_iff lead 0xf0 (by decide)
  have f4 := byte_eq_iff lead 0xf4 (by decide)
  unfold isSecond
  split_ifs with is_e0 is_ed is_f0 is_f4
  · rw [within_iff, e0.mp is_e0]
    omega
  · rw [within_iff, ed.mp is_ed]
    omega
  · rw [within_iff, f0.mp is_f0]
    omega
  · rw [within_iff, f4.mp is_f4]
    omega
  · have not_e0 : lead.toNat ≠ 0xe0 := mt e0.mpr is_e0
    have not_ed : lead.toNat ≠ 0xed := mt ed.mpr is_ed
    have not_f0 : lead.toNat ≠ 0xf0 := mt f0.mpr is_f0
    have not_f4 : lead.toNat ≠ 0xf4 := mt f4.mpr is_f4
    rw [isContinuation_iff]
    omega

/-- Arithmetic puts a code point together again, so the character is known by its number. -/
theorem ofNat_eq {c : Char} {code : Nat} (same : code = c.toNat) : Char.ofNat code = c := by
  rw [same, Char.ofNat_toNat]

theorem toNat_byte {value : Nat} (small : value < 256) : (UInt8.ofNat value).toNat = value := by
  rw [UInt8.toNat_ofNat', Nat.mod_eq_of_lt small]

theorem encodeChar_one {c : Char} (small : c.toNat < 0x80) :
    ∃ a, String.utf8EncodeChar c = [a] ∧ a.toNat = c.toNat := by
  have value : c.val.toNat = c.toNat := rfl
  refine ⟨UInt8.ofNat c.toNat, ?_, toNat_byte (by omega)⟩
  rw [String.utf8EncodeChar, value, if_pos (by omega)]

theorem encodeChar_two {c : Char} (low : 0x80 ≤ c.toNat) (high : c.toNat < 0x800) :
    ∃ a b, String.utf8EncodeChar c = [a, b] ∧ within 0xc2 0xdf a = true ∧
      isContinuation b = true ∧ Char.ofNat (a.toNat % 32 * 64 + payload b) = c := by
  have value : c.val.toNat = c.toNat := rfl
  have first := toNat_byte (show c.toNat / 64 % 32 + 192 < 256 by omega)
  have second := toNat_byte (show c.toNat % 64 + 128 < 256 by omega)
  have spelled : String.utf8EncodeChar c =
      [UInt8.ofNat (c.toNat / 64 % 32 + 192), UInt8.ofNat (c.toNat % 64 + 128)] := by
    rw [String.utf8EncodeChar, value, if_neg (by omega), if_pos (by omega)]
  refine ⟨_, _, spelled, ?_, ?_, ofNat_eq ?_⟩
  · rw [within_iff, first]
    omega
  · rw [isContinuation_iff, second]
    omega
  · rw [payload, first, second]
    omega

/-- A character that takes three bytes is no surrogate, which is what `isSecond` rules out. -/
theorem encodeChar_three {c : Char} (low : 0x800 ≤ c.toNat) (high : c.toNat < 0x10000) :
    ∃ a b d, String.utf8EncodeChar c = [a, b, d] ∧ within 0xe0 0xef a = true ∧
      isSecond a b = true ∧ isContinuation b = true ∧ isContinuation d = true ∧
        Char.ofNat (a.toNat % 16 * 4096 + payload b * 64 + payload d) = c := by
  have value : c.val.toNat = c.toNat := rfl
  have scalar := toNat_scalar c
  have first := toNat_byte (show c.toNat / 4096 % 16 + 224 < 256 by omega)
  have second := toNat_byte (show c.toNat / 64 % 64 + 128 < 256 by omega)
  have third := toNat_byte (show c.toNat % 64 + 128 < 256 by omega)
  have spelled : String.utf8EncodeChar c =
      [UInt8.ofNat (c.toNat / 4096 % 16 + 224), UInt8.ofNat (c.toNat / 64 % 64 + 128),
        UInt8.ofNat (c.toNat % 64 + 128)] := by
    rw [String.utf8EncodeChar, value, if_neg (by omega), if_neg (by omega), if_pos (by omega)]
  refine ⟨_, _, _, spelled, ?_, ?_, ?_, ?_, ofNat_eq ?_⟩
  · rw [within_iff, first]
    omega
  · rw [isSecond_iff, first, second]
    omega
  · rw [isContinuation_iff, second]
    omega
  · rw [isContinuation_iff, third]
    omega
  · rw [payload, payload, first, second, third]
    omega

theorem encodeChar_four {c : Char} (low : 0x10000 ≤ c.toNat) :
    ∃ a b d e, String.utf8EncodeChar c = [a, b, d, e] ∧ within 0xf0 0xf4 a = true ∧
      isSecond a b = true ∧ isContinuation d = true ∧ isContinuation e = true ∧
        Char.ofNat (a.toNat % 8 * 262144 + payload b * 4096 + payload d * 64 + payload e) = c := by
  have value : c.val.toNat = c.toNat := rfl
  have scalar := toNat_scalar c
  have first := toNat_byte (show c.toNat / 262144 % 8 + 240 < 256 by omega)
  have second := toNat_byte (show c.toNat / 4096 % 64 + 128 < 256 by omega)
  have third := toNat_byte (show c.toNat / 64 % 64 + 128 < 256 by omega)
  have fourth := toNat_byte (show c.toNat % 64 + 128 < 256 by omega)
  have spelled : String.utf8EncodeChar c =
      [UInt8.ofNat (c.toNat / 262144 % 8 + 240), UInt8.ofNat (c.toNat / 4096 % 64 + 128),
        UInt8.ofNat (c.toNat / 64 % 64 + 128), UInt8.ofNat (c.toNat % 64 + 128)] := by
    rw [String.utf8EncodeChar, value, if_neg (by omega), if_neg (by omega), if_neg (by omega)]
  refine ⟨_, _, _, _, spelled, ?_, ?_, ?_, ?_, ofNat_eq ?_⟩
  · rw [within_iff, first]
    omega
  · rw [isSecond_iff, first, second]
    omega
  · rw [isContinuation_iff, third]
    omega
  · rw [isContinuation_iff, fourth]
    omega
  · rw [payload, payload, payload, first, second, third, fourth]
    omega

theorem front_encodeChar (c : Char) (rest : List UInt8) :
    ∃ lead tail, String.utf8EncodeChar c = lead :: tail ∧
      front lead (tail ++ rest) = (some c, tail.length) := by
  by_cases one : c.toNat < 0x80
  · obtain ⟨a, spelled, same⟩ := encodeChar_one one
    have ascii : within 0 0x7f a = true := by
      rw [within_iff]
      omega
    exact ⟨a, [], spelled, by simp [front, ascii, same]⟩
  by_cases two : c.toNat < 0x800
  · obtain ⟨a, b, spelled, lead, continued, code⟩ := encodeChar_two (Nat.le_of_not_lt one) two
    have ascii : within 0 0x7f a = false := not_within lead (by decide)
    exact ⟨a, [b], spelled, by simp [front, ascii, lead, continued, code]⟩
  by_cases three : c.toNat < 0x10000
  · obtain ⟨a, b, d, spelled, lead, allowed, -, continued, code⟩ :=
      encodeChar_three (Nat.le_of_not_lt two) three
    have ascii : within 0 0x7f a = false := not_within lead (by decide)
    have short : within 0xc2 0xdf a = false := not_within lead (by decide)
    exact ⟨a, [b, d], spelled, by simp [front, ascii, short, lead, allowed, continued, code]⟩
  · obtain ⟨a, b, d, e, spelled, lead, allowed, continued, ended, code⟩ :=
      encodeChar_four (Nat.le_of_not_lt three)
    have ascii : within 0 0x7f a = false := not_within lead (by decide)
    have short : within 0xc2 0xdf a = false := not_within lead (by decide)
    have middle : within 0xe0 0xef a = false := not_within lead (by decide)
    exact ⟨a, [b, d, e], spelled,
      by simp [front, ascii, short, middle, lead, allowed, continued, ended, code]⟩

theorem decode?_encodeChar_append (c : Char) (rest : List UInt8) :
    decode? (String.utf8EncodeChar c ++ rest) = (decode? rest).map (c :: ·) := by
  obtain ⟨lead, tail, spelled, read⟩ := front_encodeChar c rest
  rw [spelled, List.cons_append, decode?, read]
  simp

theorem decode?_encode (text : List Char) : decode? (encode text) = some text := by
  induction text with
  | nil => exact decode?_nil
  | cons c text ih =>
      have front : encode (c :: text) = String.utf8EncodeChar c ++ encode text := rfl
      rw [front, decode?_encodeChar_append, ih, Option.map_some]

theorem le_of_mem_encodeChar {c : Char} (large : 0x80 ≤ c.toNat) {byte : UInt8}
    (member : byte ∈ String.utf8EncodeChar c) : 0x80 ≤ byte.toNat := by
  by_cases two : c.toNat < 0x800
  · obtain ⟨a, b, spelled, first, second, -⟩ := encodeChar_two large two
    rw [within_iff] at first
    rw [isContinuation_iff] at second
    rw [spelled] at member
    simp only [List.mem_cons, List.not_mem_nil, or_false] at member
    rcases member with rfl | rfl <;> omega
  by_cases three : c.toNat < 0x10000
  · obtain ⟨a, b, d, spelled, first, -, second, third, -⟩ :=
      encodeChar_three (Nat.le_of_not_lt two) three
    rw [within_iff] at first
    rw [isContinuation_iff] at second third
    rw [spelled] at member
    simp only [List.mem_cons, List.not_mem_nil, or_false] at member
    rcases member with rfl | rfl | rfl <;> omega
  · obtain ⟨a, b, d, e, spelled, first, second, third, fourth, -⟩ :=
      encodeChar_four (Nat.le_of_not_lt three)
    rw [within_iff] at first
    rw [isSecond_iff] at second
    rw [isContinuation_iff] at third fourth
    rw [spelled] at member
    simp only [List.mem_cons, List.not_mem_nil, or_false] at member
    rcases member with rfl | rfl | rfl | rfl <;> omega

/-- The byte of an ASCII character occurs in the encoding of no other character. -/
theorem eq_ascii_iff (stop : Char) (ascii : stop.toNat < 0x80) {c : Char} {byte : UInt8}
    (member : byte ∈ String.utf8EncodeChar c) : byte = UInt8.ofNat stop.toNat ↔ c = stop := by
  rw [byte_eq_iff byte stop.toNat (by omega)]
  by_cases small : c.toNat < 0x80
  · obtain ⟨a, spelled, same⟩ := encodeChar_one small
    rw [spelled, List.mem_singleton] at member
    rw [member, same, Char.toNat_inj]
  · have large := le_of_mem_encodeChar (Nat.le_of_not_lt small) member
    constructor
    · omega
    · rintro rfl
      contradiction

theorem encode_cons (c : Char) (text : List Char) :
    encode (c :: text) = String.utf8EncodeChar c ++ encode text := rfl

theorem exists_lead (c : Char) (text : List Char) :
    ∃ lead tail, encode (c :: text) = lead :: tail ∧ lead ∈ String.utf8EncodeChar c := by
  obtain ⟨lead, tail, spelled, -⟩ := front_encodeChar c []
  refine ⟨lead, tail ++ encode text, ?_, ?_⟩
  · rw [encode_cons, spelled, List.cons_append]
  · simp [spelled]

theorem exists_lead_ne {c : Char} (stop : Char) (byte : UInt8)
    (ascii : stop.toNat < 0x80 ∧ byte = UInt8.ofNat stop.toNat) (other : c ≠ stop)
    (text : List Char) : ∃ lead tail, encode (c :: text) = lead :: tail ∧ lead ≠ byte := by
  obtain ⟨lead, tail, spelled, member⟩ := exists_lead c text
  rw [ascii.2]
  exact ⟨lead, tail, spelled, mt (eq_ascii_iff stop ascii.1 member).mp other⟩

section

variable {onBytes : UInt8 → Bool} {onText : Char → Bool}
  (agree : ∀ c, ∀ byte ∈ String.utf8EncodeChar c, onBytes byte = onText c)

include agree

/-- A search that decides alike on all bytes of a character stops between characters. -/
theorem takeWhile_encode (text : List Char) :
    (encode text).takeWhile onBytes = encode (text.takeWhile onText) := by
  induction text with
  | nil => rfl
  | cons c text ih =>
      rw [encode_cons]
      cases kept : onText c with
      | true =>
          have passed : ∀ byte ∈ String.utf8EncodeChar c, onBytes byte = true := fun byte member =>
            (agree c byte member).trans kept
          rw [List.takeWhile_append_of_pos passed, ih, List.takeWhile_cons_of_pos kept, encode_cons]
      | false =>
          obtain ⟨lead, tail, spelled, -⟩ := front_encodeChar c []
          have stopped : onBytes lead = false := (agree c lead (by simp [spelled])).trans kept
          simp [spelled, stopped, kept, encode]

theorem dropWhile_encode (text : List Char) :
    (encode text).dropWhile onBytes = encode (text.dropWhile onText) := by
  have whole : (encode text).takeWhile onBytes ++ (encode text).dropWhile onBytes =
      encode (text.takeWhile onText) ++ encode (text.dropWhile onText) := by
    rw [List.takeWhile_append_dropWhile, encode, encode, encode, ← List.flatMap_append,
      List.takeWhile_append_dropWhile]
  rw [takeWhile_encode agree] at whole
  exact List.append_cancel_left whole

end

end Utf8

end Stubwright.Text
