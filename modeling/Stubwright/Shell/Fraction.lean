import Stubwright.Shell.Formula

/-!
Numbers with a fraction as they are printed. A number is first rounded to double precision, so that
it is a whole number times a power of two, and then to as many digits as are asked for; of two
equally near results the even one is taken.
-/
namespace Stubwright.Shell

/-- A number without its sign: `significand · 2 ^ exponent`, or one of the values that are none. -/
inductive Magnitude where
  | finite (significand : Nat) (exponent : Int)
  | infinite
  | undefined
deriving DecidableEq, Repr

def divideToEven (a b : Nat) : Nat :=
  let quotient := a / b
  if b < 2 * (a % b) || (2 * (a % b) = b && quotient % 2 = 1) then quotient + 1 else quotient

def scaledQuotient (a b base : Nat) (exponent : Int) : Nat :=
  if exponent < 0 then divideToEven a (b * Nat.pow base exponent.natAbs)
  else divideToEven (a * Nat.pow base exponent.toNat) b

namespace Magnitude

def nearest (a b : Nat) : Magnitude :=
  if a = 0 then finite 0 0
  else
    let guess : Int := (a.log2 : Int) - b.log2 - 53
    let leading :=
      if guess < 0 then a * Nat.pow 2 guess.natAbs / b else a / (b * Nat.pow 2 guess.toNat)
    let isLarge := Nat.pow 2 53 ≤ leading
    let exponent := max (if isLarge then guess + 1 else guess) (-1074)
    let significand := scaledQuotient a b 2 (-exponent)
    if Nat.pow 2 1024 ≤ significand * Nat.pow 2 exponent.toNat then infinite
    else finite significand exponent

def isExtreme (a b : Nat) : Bool :=
  match nearest a b with
  | finite significand exponent =>
      significand < Nat.pow 2 52 && exponent = -1074 && a * Nat.pow 2 1074 != significand * b
  | _ => true

def quotient (significand : Nat) (exponent : Int) : Nat × Nat :=
  if exponent < 0 then (significand, Nat.pow 2 exponent.natAbs)
  else (significand * Nat.pow 2 exponent.toNat, 1)

end Magnitude

def withPeriod (digits : List Char) (places : Nat) (keepsPeriod : Bool) : Value :=
  let digits := List.replicate (places + 1 - digits.length) '0' ++ digits
  let whole := digits.take (digits.length - places)
  let fraction := digits.drop (digits.length - places)
  if places = 0 && !keepsPeriod then whole else whole ++ '.' :: fraction

def fixedText (a b places : Nat) (keepsPeriod : Bool) : Value :=
  withPeriod (toString (scaledQuotient a b 10 places)).toList places keepsPeriod

def leadingExponent (a b : Nat) : Int :=
  if b ≤ a then ((toString (a / b)).length : Int) - 1
  else
    let guess := (toString (b / a)).length
    if b ≤ a * Nat.pow 10 (guess - 1) then -((guess : Int) - 1) else -(guess : Int)

def leadingDigits (a b places : Nat) : List Char × Int :=
  if a = 0 then (List.replicate (places + 1) '0', 0)
  else
    let exponent := leadingExponent a b
    let digits := (toString (scaledQuotient a b 10 (places - exponent))).toList
    if digits.length > places + 1 then (digits.dropLast, exponent + 1) else (digits, exponent)

def exponentText (exponent : Int) (letter : Char) : Value :=
  let digits := (toString exponent.natAbs).toList
  letter :: (if exponent < 0 then '-' else '+') :: List.replicate (2 - digits.length) '0' ++ digits

def scientificText (a b places : Nat) (keepsPeriod : Bool) (letter : Char) : Value :=
  let (digits, exponent) := leadingDigits a b places
  withPeriod digits places keepsPeriod ++ exponentText exponent letter

def withoutZeros (text : Value) : Value :=
  if text.contains '.' then
    (match text.reverse.dropWhile (· = '0') with
      | '.' :: front => front
      | front => front).reverse
  else text

def generalText (a b digits : Nat) (keepsZeros : Bool) (letter : Char) : Value :=
  let digits := max digits 1
  let (found, exponent) := leadingDigits a b (digits - 1)
  if -4 ≤ exponent && exponent < digits then
    let text := fixedText a b (digits - 1 - exponent).toNat keepsZeros
    if keepsZeros then text else withoutZeros text
  else
    let text := withPeriod found (digits - 1) keepsZeros
    (if keepsZeros then text else withoutZeros text) ++ exponentText exponent letter

/-- A number in base sixteen with an exponent of two, without the `0x` in front. Unless so many
digits behind the period are asked for, there are as many as it takes. -/
def hexadecimalText (significand : Nat) (exponent : Int) (places : Option Nat)
    (keepsPeriod : Bool) : Value :=
  let leading := max ((significand.log2 : Int) + exponent) (-1022)
  let (a, b) := Magnitude.quotient significand (exponent - leading)
  let shown := places.getD 13
  let text := withPeriod (Nat.toDigits 16 (scaledQuotient a b 16 shown)) shown keepsPeriod
  let text := if places.isSome then text else withoutZeros text
  let text := if keepsPeriod && !text.contains '.' then text ++ ['.'] else text
  let leading := if significand = 0 then 0 else leading
  text ++ 'p' :: (if leading < 0 then '-' else '+') :: (toString leading.natAbs).toList

def magnitudeText (magnitude : Magnitude) (letter : Char) (places : Option Nat)
    (keepsPeriod : Bool) : Value :=
  match magnitude with
  | .infinite => octets "inf"
  | .undefined => octets "nan"
  | .finite significand exponent =>
      let (a, b) := Magnitude.quotient significand exponent
      let exact := places
      let places := places.getD 6
      match letter with
      | 'a' => hexadecimalText significand exponent exact keepsPeriod
      | 'f' => fixedText a b places keepsPeriod
      | 'e' => scientificText a b places keepsPeriod letter
      | _ => generalText a b places keepsPeriod 'e'

def magnitudeAtFront (text : List Char) : Option (Magnitude × Bool × List Char) :=
  let named (name : String) (rest : List Char) : Bool :=
    (rest.take name.length).map Char.toLower = name.toList
  let exponentAt (mark : Char) (rest : List Char) : Int × List Char :=
    match rest with
    | c :: more =>
        let (isNegative, digits) := match more with
          | '-' :: digits => (true, digits)
          | '+' :: digits => (false, digits)
          | _ => (false, more)
        let run := digits.takeWhile Char.isDigit
        if c.toLower = mark && !run.isEmpty then
          let size : Int := (min ((String.ofList run).toNat?.getD 0) 10000 : Nat)
          (if isNegative then -size else size, digits.drop run.length)
        else (0, rest)
    | [] => (0, rest)
  let inBase (base : Nat) (digits : List Char) : Option (Nat × Nat × List Char) :=
    let isDigitHere (c : Char) : Bool := digitValue c < base
    let whole := digits.takeWhile isDigitHere
    let (fraction, rest) := match digits.drop whole.length with
      | '.' :: more => (more.takeWhile isDigitHere, more.dropWhile isDigitHere)
      | rest => ([], rest)
    if whole.isEmpty && fraction.isEmpty then none
    else
      let value := (whole ++ fraction).foldl (fun total c => total * base + digitValue c) 0
      some (value, fraction.length, rest)
  if named "infinity" text then some (.infinite, false, text.drop 8)
  else if named "inf" text then some (.infinite, false, text.drop 3)
  else if named "nan" text then some (.undefined, false, text.drop 3)
  else
    let hexadecimal := match text with
      | '0' :: x :: rest => if x.toLower = 'x' then inBase 16 rest else none
      | _ => none
    match hexadecimal with
    | some (value, places, rest) =>
        let (exponent, rest) := exponentAt 'p' rest
        let exponent := exponent - 4 * places
        let (a, b) := Magnitude.quotient value exponent
        some (.nearest a b, Magnitude.isExtreme a b, rest)
    | none =>
        (inBase 10 text).map fun (value, places, rest) =>
          let (exponent, rest) := exponentAt 'e' rest
          let exponent := exponent - places
          let (a, b) :=
            if exponent < 0 then (value, Nat.pow 10 exponent.natAbs)
            else (value * Nat.pow 10 exponent.toNat, 1)
          (.nearest a b, Magnitude.isExtreme a b, rest)

end Stubwright.Shell
