/-!
UTF-8 between bytes and characters. `encode` writes the shortest form of each character, `decode?`
accepts exactly well-formed texts, and `decodeLossy` puts U+FFFD in the place of each longest start
of a character that is not continued, so that reading never fails.
-/
namespace Stubwright.Text.Utf8

def encode (text : List Char) : List UInt8 :=
  text.flatMap String.utf8EncodeChar

def encodeString (text : String) : List UInt8 :=
  encode text.toList

def within (low high : Nat) (byte : UInt8) : Bool :=
  low ≤ byte.toNat && byte.toNat ≤ high

def isContinuation (byte : UInt8) : Bool :=
  within 0x80 0xbf byte

/-- The values a second byte may take: they rule out overlong forms, surrogates and code points
above U+10FFFF. -/
def isSecond (lead second : UInt8) : Bool :=
  if lead = 0xe0 then within 0xa0 0xbf second
  else if lead = 0xed then within 0x80 0x9f second
  else if lead = 0xf0 then within 0x90 0xbf second
  else if lead = 0xf4 then within 0x80 0x8f second
  else isContinuation second

def payload (byte : UInt8) : Nat :=
  byte.toNat % 64

/-- The character that starts with `lead` and the number of bytes of `rest` that belong to it. If no
character stands there, the number of bytes of `rest` that could still have belonged to one. -/
def front (lead : UInt8) (rest : List UInt8) : Option Char × Nat :=
  if within 0 0x7f lead then (some (Char.ofNat lead.toNat), 0)
  else if within 0xc2 0xdf lead then
    match rest with
    | b :: _ =>
        if isContinuation b then (some (Char.ofNat (lead.toNat % 32 * 64 + payload b)), 1)
        else (none, 0)
    | [] => (none, 0)
  else if within 0xe0 0xef lead then
    match rest with
    | b :: c :: _ =>
        if isSecond lead b then
          if isContinuation c then
            (some (Char.ofNat (lead.toNat % 16 * 4096 + payload b * 64 + payload c)), 2)
          else (none, 1)
        else (none, 0)
    | [b] => (none, if isSecond lead b then 1 else 0)
    | [] => (none, 0)
  else if within 0xf0 0xf4 lead then
    match rest with
    | b :: c :: d :: _ =>
        if isSecond lead b then
          if isContinuation c then
            if isContinuation d then
              (some (Char.ofNat
                (lead.toNat % 8 * 262144 + payload b * 4096 + payload c * 64 + payload d)), 3)
            else (none, 2)
          else (none, 1)
        else (none, 0)
    | [b, c] => (none, if isSecond lead b then if isContinuation c then 2 else 1 else 0)
    | [b] => (none, if isSecond lead b then 1 else 0)
    | [] => (none, 0)
  else (none, 0)

def decode? : List UInt8 → Option (List Char)
  | [] => some []
  | lead :: rest =>
      match front lead rest with
      | (none, _) => none
      | (some c, taken) => (decode? (rest.drop taken)).map (c :: ·)
termination_by bytes => bytes.length
decreasing_by
  simp only [List.length_drop, List.length_cons]
  omega

/-- The text that the bytes encode, with U+FFFD for every malformed part. -/
def decodeLossy : List UInt8 → List Char
  | [] => []
  | lead :: rest =>
      match front lead rest with
      | (character, taken) => character.getD '\ufffd' :: decodeLossy (rest.drop taken)
termination_by bytes => bytes.length
decreasing_by
  simp only [List.length_drop, List.length_cons]
  omega

theorem decode?_nil : decode? [] = some [] := by
  simp [decode?]

theorem decodeLossy_of_decode? {bytes : List UInt8} {text : List Char}
    (decoded : decode? bytes = some text) : decodeLossy bytes = text := by
  fun_induction decode? bytes generalizing text with
  | case1 => simpa [decodeLossy, eq_comm] using decoded
  | case2 => simp at decoded
  | case3 lead rest c taken found ih =>
      obtain ⟨tail, tailDecoded, rfl⟩ := Option.map_eq_some_iff.mp decoded
      rw [decodeLossy, found]
      simp [ih tailDecoded]

end Stubwright.Text.Utf8
