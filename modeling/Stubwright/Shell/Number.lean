import Stubwright.Decimal

namespace Stubwright.Shell

def isBlank (c : Char) : Bool :=
  c = ' ' || ('\t' ≤ c && c ≤ '\r')

def wrapped (number : Int) : Int :=
  number.bmod (Nat.pow 2 64)

def wholeNumber? (text : List Char) : Option Int :=
  let text := ((text.dropWhile isBlank).reverse.dropWhile isBlank).reverse
  let (isNegative, digits) := match text with
    | '-' :: digits => (true, digits)
    | '+' :: digits => (false, digits)
    | digits => (false, digits)
  if digits.isEmpty || !digits.all Decimal.isDigit then none
  else
    let size : Int := Decimal.digitsValue digits
    let number := if isNegative then -size else size
    if number = wrapped number then some number else none

def greatestCount : Nat := Nat.pow 2 31 - 1

end Stubwright.Shell
