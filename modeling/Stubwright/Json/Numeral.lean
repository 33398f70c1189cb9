import Stubwright.Decimal
import Stubwright.Json.Basic

namespace Stubwright.Json

open Decimal

/-- Digits as far as they count, and the power of ten behind them. -/
structure Scaled where
  significand : Nat
  exponent : Int
deriving DecidableEq, Repr

def significandLimit : Nat := Nat.pow 2 64

/-- The digits of a whole number, in order. From the first one on that does not fit they only scale
the number. -/
def Scaled.addDigits : List Char → Scaled → Scaled
  | [], scaled => scaled
  | digit :: digits, scaled =>
      let significand := scaled.significand * 10 + digitsValue [digit]
      if significand < significandLimit then addDigits digits { scaled with significand }
      else { scaled with exponent := scaled.exponent + (digit :: digits).length }

/-- The digits of a fraction, in order. From the first one on that does not fit they are dropped. -/
def Scaled.addPlaces : List Char → Scaled → Scaled
  | [], scaled => scaled
  | digit :: digits, scaled =>
      let significand := scaled.significand * 10 + digitsValue [digit]
      if significand < significandLimit then
        addPlaces digits ⟨significand, scaled.exponent - 1⟩
      else scaled

def Scaled.isInRange (scaled : Scaled) : Bool :=
  !productOverflows scaled.significand scaled.exponent

inductive NumberReading where
  | complete (value : Except Fault (Option Nat)) (rest : List Char)
  | broken (onRead onSkip : Fault)

def missingDigits : List Char → NumberReading
  | [] => .broken .ended .malformed
  | _ => .broken .malformed .malformed

def rangeChecked (scaled : Scaled) (natural : Option Nat) (rest : List Char) : NumberReading :=
  .complete (if scaled.isInRange then .ok natural else .error .malformed) rest

def readExponent (scaled : Scaled) (text : List Char) : NumberReading :=
  let (negative, unsigned) :=
    match text with
    | '+' :: rest => (false, rest)
    | '-' :: rest => (true, rest)
    | _ => (false, text)
  let digits := unsigned.takeWhile isDigit
  let rest := unsigned.dropWhile isDigit
  if digits.isEmpty then missingDigits rest
  else
    let size : Int := digitsValue digits
    let exponent := scaled.exponent + (if negative then -size else size)
    rangeChecked { scaled with exponent } none rest

def readFraction (scaled : Scaled) (text : List Char) : NumberReading :=
  let places := text.takeWhile isDigit
  let rest := text.dropWhile isDigit
  let scaled := scaled.addPlaces places
  if places.isEmpty then missingDigits rest
  else
    match rest with
    | 'e' :: exponent | 'E' :: exponent => readExponent scaled exponent
    | _ => rangeChecked scaled none rest

def readUnsigned (negative : Bool) (text : List Char) : NumberReading :=
  let digits := text.takeWhile isDigit
  let rest := text.dropWhile isDigit
  let scaled := Scaled.addDigits digits ⟨0, 0⟩
  if digits.isEmpty then missingDigits rest
  else if digits.head? = some '0' && digits.length > 1 then .broken .malformed .malformed
  else
    match rest with
    | '.' :: fraction => readFraction scaled fraction
    | 'e' :: exponent | 'E' :: exponent => readExponent scaled exponent
    | _ => rangeChecked scaled (if negative then none else some (digitsValue digits)) rest

def readNumber : List Char → NumberReading
  | '-' :: rest => readUnsigned true rest
  | unsigned => readUnsigned false unsigned

end Stubwright.Json
