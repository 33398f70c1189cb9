import Stubwright.Json.Basic

namespace Stubwright.Json

/-- What a string is written as: a character, or a UTF-16 unit in four hexadecimal digits. -/
inductive Unit16 where
  | character (c : Char)
  | escaped (unit : Nat)
deriving DecidableEq, Repr

def hexDigit? (c : Char) : Option Nat :=
  if '0' ≤ c && c ≤ '9' then some (c.toNat - '0'.toNat)
  else if 'a' ≤ c && c ≤ 'f' then some (c.toNat - 'a'.toNat + 10)
  else if 'A' ≤ c && c ≤ 'F' then some (c.toNat - 'A'.toNat + 10)
  else none

def hexUnit? (a b c d : Char) : Option Nat := do
  let a ← hexDigit? a
  let b ← hexDigit? b
  let c ← hexDigit? c
  let d ← hexDigit? d
  pure (((a * 16 + b) * 16 + c) * 16 + d)

def shortEscape? : Char → Option Char
  | '"' => some '"'
  | '\\' => some '\\'
  | '/' => some '/'
  | 'b' => some '\x08'
  | 'f' => some '\x0c'
  | 'n' => some '\n'
  | 'r' => some '\r'
  | 't' => some '\t'
  | _ => none

inductive Ending where
  | closed (rest : List Char)
  | broken (fault : Fault)
deriving DecidableEq, Repr

/-- The content of a string whose opening quote is read. An escape needs four bytes to follow it
before its digits are looked at. -/
def readUnits : List Char → List Unit16 × Ending
  | [] => ([], .broken .ended)
  | '"' :: rest => ([], .closed rest)
  | '\\' :: 'u' :: a :: b :: c :: d :: rest =>
      match hexUnit? a b c d with
      | none => ([], .broken .malformed)
      | some unit =>
          let (units, ending) := readUnits rest
          (.escaped unit :: units, ending)
  | '\\' :: 'u' :: rest =>
      ([], .broken (if (String.ofList rest).utf8ByteSize < 4 then .ended else .malformed))
  | '\\' :: c :: rest =>
      match shortEscape? c with
      | none => ([], .broken .malformed)
      | some c =>
          let (units, ending) := readUnits rest
          (.character c :: units, ending)
  | ['\\'] => ([], .broken .ended)
  | c :: rest =>
      if c.toNat < 0x20 then ([], .broken .malformed)
      else
        let (units, ending) := readUnits rest
        (.character c :: units, ending)

def isHighSurrogate (unit : Nat) : Bool :=
  0xd800 ≤ unit && unit ≤ 0xdbff

def isLowSurrogate (unit : Nat) : Bool :=
  0xdc00 ≤ unit && unit ≤ 0xdfff

/-- The characters that the units stand for. A high surrogate at the very end is refused only if the
string ends there too, which `open` denies. -/
def combine (isOpen : Bool) : List Unit16 → Except Fault (List Char)
  | [] => .ok []
  | .character c :: rest => do
      let text ← combine isOpen rest
      pure (c :: text)
  | [.escaped unit] =>
      if isLowSurrogate unit || (isHighSurrogate unit && !isOpen) then .error .malformed
      else .ok [Char.ofNat unit]
  | .escaped unit :: .escaped next :: rest =>
      if isLowSurrogate unit then .error .malformed
      else if isHighSurrogate unit then
        if isLowSurrogate next then do
          let text ← combine isOpen rest
          pure (Char.ofNat (0x10000 + (unit - 0xd800) * 0x400 + (next - 0xdc00)) :: text)
        else .error .malformed
      else do
        let text ← combine isOpen (.escaped next :: rest)
        pure (Char.ofNat unit :: text)
  | .escaped unit :: .character c :: rest =>
      if isLowSurrogate unit || isHighSurrogate unit then .error .malformed
      else do
        let text ← combine isOpen (.character c :: rest)
        pure (Char.ofNat unit :: text)

inductive TextReading where
  | closed (content : Except Fault String) (rest : List Char)
  | broken (onRead onSkip : Fault)

def readText (text : List Char) : TextReading :=
  match readUnits text with
  | (units, .closed rest) => .closed ((combine false units).map String.ofList) rest
  | (units, .broken fault) =>
      match combine true units with
      | .ok _ => .broken fault fault
      | .error earlier => .broken earlier fault

def hexChar (digit : Nat) : Char :=
  if digit < 10 then Char.ofNat ('0'.toNat + digit) else Char.ofNat ('a'.toNat + digit - 10)

def writeChar (c : Char) : List Char :=
  if c = '"' then ['\\', '"']
  else if c = '\\' then ['\\', '\\']
  else if c = '\x08' then ['\\', 'b']
  else if c = '\x0c' then ['\\', 'f']
  else if c = '\n' then ['\\', 'n']
  else if c = '\r' then ['\\', 'r']
  else if c = '\t' then ['\\', 't']
  else if c.toNat < 0x20 then
    ['\\', 'u', '0', '0', hexChar (c.toNat / 16), hexChar (c.toNat % 16)]
  else [c]

def writeText (content : String) : List Char :=
  '"' :: content.toList.flatMap writeChar ++ ['"']

end Stubwright.Json
