import Stubwright.Decimal
import Stubwright.Json.Basic
import Stubwright.Toml.Text

/-!
Numbers, dates and times of TOML documents. Only the value of whole numbers is kept; of the others,
positive ones may not overflow. A date counts as a record with one private field, so that it passes
for no other scalar.
-/
namespace Stubwright.Toml

def digitsAtFront (isDigit : Char → Bool) :
    (steps : Nat) → List Char → Option (List Char × List Char)
  | 0, _ => none
  | steps + 1, c :: rest =>
      if !isDigit c then none
      else
        match rest with
        | '_' :: more =>
            (digitsAtFront isDigit steps more).map fun (digits, rest) => (c :: digits, rest)
        | d :: _ =>
            if isDigit d then
              (digitsAtFront isDigit steps rest).map fun (digits, rest) => (c :: digits, rest)
            else some ([c], rest)
        | [] => some ([c], [])
  | _ + 1, [] => none

def digits (isDigit : Char → Bool) (text : List Char) : Option (List Char × List Char) :=
  digitsAtFront isDigit text.length text

def valueIn (base : Nat) (digits : List Char) : Nat :=
  digits.foldl (fun total c => total * base + hexValue [c]) 0

/-- Whole numbers stand for themselves between these bounds. -/
def isInRange (number : Int) : Bool :=
  -Int.pow 2 63 ≤ number && number < Int.pow 2 63

def wholeNumber (number : Int) (rest : List Char) : Option (Json × List Char) :=
  if isInRange number then
    some (.number (.ok (if number < 0 then none else some number.toNat)), rest)
  else none

def sign : List Char → Bool × List Char
  | '-' :: rest => (true, rest)
  | '+' :: rest => (false, rest)
  | text => (false, text)

def decimalAtFront : List Char → Option (List Char × List Char)
  | '0' :: rest => some (['0'], rest)
  | text => digits Char.isDigit text

def exponentAtFront : List Char → Option (Int × List Char)
  | c :: rest =>
      if c = 'e' || c = 'E' then
        let (isNegative, unsigned) := sign rest
        (digits Char.isDigit unsigned).map fun (digits, rest) =>
          let size : Int := valueIn 10 digits
          (if isNegative then -size else size, rest)
      else none
  | [] => none

/-- The digits of a fraction, an exponent, and the rest behind them. Of the two there is at least
one. -/
def fractionAtFront : List Char → Option (List Char × Int × List Char)
  | '.' :: rest =>
      (digits Char.isDigit rest).map fun (places, rest) =>
        match exponentAtFront rest with
        | some (exponent, rest) => (places, exponent, rest)
        | none => (places, 0, rest)
  | text => (exponentAtFront text).map fun (exponent, rest) => ([], exponent, rest)

def inexact : Json := .number (.ok none)

def named (name : String) (text : List Char) : Option (List Char) :=
  if name.toList.isPrefixOf text then some (text.drop name.length) else none

def number (text : List Char) : Option (Json × List Char) :=
  match text with
  | '0' :: 'x' :: rest =>
      (digits isHexDigit rest).bind fun (digits, rest) => wholeNumber (valueIn 16 digits) rest
  | '0' :: 'o' :: rest =>
      (digits (isBetween 0x30 0x37) rest).bind fun (digits, rest) =>
        wholeNumber (valueIn 8 digits) rest
  | '0' :: 'b' :: rest =>
      (digits (isBetween 0x30 0x31) rest).bind fun (digits, rest) =>
        wholeNumber (valueIn 2 digits) rest
  | _ =>
      let (isNegative, unsigned) := sign text
      match (named "inf" unsigned).or (named "nan" unsigned) with
      | some rest => some (inexact, rest)
      | none =>
          match decimalAtFront unsigned with
          | none => none
          | some (digits, rest) =>
              match fractionAtFront rest with
              | some (places, exponent, rest) =>
                  if !isNegative && Decimal.overflows (digits ++ places) (exponent - places.length)
                  then none
                  else some (inexact, rest)
              | none =>
                  let size : Int := valueIn 10 digits
                  wholeNumber (if isNegative then -size else size) rest

def fixedNumber (count low high : Nat) (text : List Char) : Option (Nat × List Char) :=
  let digits := text.take count
  let value := valueIn 10 digits
  if digits.length = count && digits.all Char.isDigit && low ≤ value && value ≤ high then
    some (value, text.drop count)
  else none

def expect (c : Char) : List Char → Option (List Char)
  | d :: rest => if c = d then some rest else none
  | [] => none

def daysIn (year month : Nat) : Nat :=
  if month = 2 then
    if year % 4 = 0 && (year % 100 != 0 || year % 400 = 0) then 29 else 28
  else if [4, 6, 9, 11].contains month then 30
  else 31

def date (text : List Char) : Option (List Char) := do
  let (year, rest) ← fixedNumber 4 0 9999 text
  let (month, rest) ← fixedNumber 2 1 12 (← expect '-' rest)
  let (day, rest) ← fixedNumber 2 1 31 (← expect '-' rest)
  if day ≤ daysIn year month then some rest else none

def time (text : List Char) : Option (List Char) := do
  let (_, rest) ← fixedNumber 2 0 23 text
  let (_, rest) ← fixedNumber 2 0 59 (← expect ':' rest)
  let (_, rest) ← fixedNumber 2 0 60 (← expect ':' rest)
  match rest with
  | '.' :: c :: more => if c.isDigit then some (more.dropWhile Char.isDigit) else some rest
  | rest => some rest

def offset (text : List Char) : Option (List Char) :=
  match text with
  | c :: rest =>
      if c = 'Z' || c = 'z' then some rest
      else if c = '+' || c = '-' then do
        let (_, rest) ← fixedNumber 2 0 23 rest
        let (_, rest) ← fixedNumber 2 0 59 (← expect ':' rest)
        pure rest
      else some text
  | [] => some []

def moment (text : List Char) : Option (List Char) :=
  match date text with
  | none => time text
  | some rest =>
      match rest with
      | c :: later =>
          if c = 'T' || c = 't' || c = ' ' then
            match time later with
            | some rest => offset rest
            | none => some (c :: later)
          else some rest
      | [] => some []

def momentValue : Json :=
  .ofMembers [("$moment", .null)]

def scalar (text : List Char) : Option (Json × List Char) :=
  match named "true" text, named "false" text with
  | some rest, _ => some (.bool true, rest)
  | _, some rest => some (.bool false, rest)
  | none, none =>
      match moment text with
      | some rest => some (momentValue, rest)
      | none => number text

end Stubwright.Toml
