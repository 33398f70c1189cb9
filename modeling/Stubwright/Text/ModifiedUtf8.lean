import Stubwright.Text.Utf8

/-!
The strings of class files. Modified UTF-8 writes each code unit on its own, U+0000 in two bytes and
a surrogate in three, so a character above U+FFFF takes six. The reader is not as wide as the
writer: it knows a surrogate only before or behind its partner. Bytes that are plain UTF-8
throughout are read as such first, so both spellings of a text are understood.
-/
namespace Stubwright.Text.ModifiedUtf8

open Utf8

/-- A code unit on its own, whether or not it is a character. -/
def encodeUnit (unit : UInt16) : List UInt8 :=
  if unit.toNat = 0 then [0xc0, 0x80]
  else if unit.toNat < 0x80 then [UInt8.ofNat unit.toNat]
  else if unit.toNat < 0x800 then
    [UInt8.ofNat (0xc0 + unit.toNat / 64), UInt8.ofNat (0x80 + unit.toNat % 64)]
  else
    [UInt8.ofNat (0xe0 + unit.toNat / 4096), UInt8.ofNat (0x80 + unit.toNat / 64 % 64),
      UInt8.ofNat (0x80 + unit.toNat % 64)]

def encode (units : List UInt16) : List UInt8 :=
  units.flatMap encodeUnit

/-- The character whose surrogates have the payloads `high` and `low`, each in the two bytes after
the lead byte `ED`. -/
def ofSurrogates (high₁ high₂ low₁ low₂ : UInt8) : Char :=
  Char.ofNat (0x10000 + (high₁.toNat % 16 * 64 + payload high₂) * 1024 +
    (low₁.toNat % 16 * 64 + payload low₂))

/-- Reads modified UTF-8 alone: no zero byte, no four-byte form, no surrogate without its partner.
-/
def decodeStrict? : List UInt8 → Option (List Char)
  | [] => some []
  | a :: rest =>
      if a = 0 then none
      else if within 1 0x7f a then (decodeStrict? rest).map (Char.ofNat a.toNat :: ·)
      else
        match rest with
        | [] => none
        | b :: rest =>
            if a = 0xc0 then
              if b = 0x80 then (decodeStrict? rest).map (Char.ofNat 0 :: ·) else none
            else if within 0xc2 0xdf a then
              if isContinuation b then
                (decodeStrict? rest).map (Char.ofNat (a.toNat % 32 * 64 + payload b) :: ·)
              else none
            else if within 0xe0 0xef a then
              match rest with
              | [] => none
              | c :: rest =>
                  if !isContinuation b || !isContinuation c then none
                  else if isSecond a b then
                    (decodeStrict? rest).map
                      (Char.ofNat (a.toNat % 16 * 4096 + payload b * 64 + payload c) :: ·)
                  else if a = 0xed && within 0xa0 0xaf b then
                    match rest with
                    | d :: e :: f :: rest =>
                        if d = 0xed && within 0xb0 0xbf e && isContinuation f then
                          (decodeStrict? rest).map (ofSurrogates b c e f :: ·)
                        else none
                    | _ => none
                  else none
            else none

/-- Reads the bytes as plain UTF-8 and, if they are not that, as modified UTF-8. -/
def decode? (bytes : List UInt8) : Option (List Char) :=
  match Utf8.decode? bytes with
  | some text => some text
  | none => decodeStrict? bytes

theorem decode?_of_plain {bytes : List UInt8} {text : List Char}
    (plain : Utf8.decode? bytes = some text) : decode? bytes = some text := by
  simp [decode?, plain]

end Stubwright.Text.ModifiedUtf8
