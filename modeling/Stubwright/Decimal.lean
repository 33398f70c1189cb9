namespace Stubwright.Decimal

def isDigit (c : Char) : Bool :=
  '0' ≤ c && c ≤ '9'

def digitsValue (digits : List Char) : Nat :=
  digits.foldl (fun total c => total * 10 + (c.toNat - '0'.toNat)) 0

/-- The bits of a double-precision number. -/
def precision : Nat := 53

/-- The least number that rounds to more than the largest double-precision number. -/
def overflowLimit : Nat := Nat.pow 2 1024 - Nat.pow 2 970

/-- Whether `digits · 10 ^ exponent` overflows. The number of digits decides except next to the
limit. -/
def overflows (digits : List Char) (exponent : Int) : Bool :=
  let significant := digits.dropWhile (· = '0')
  let magnitude : Int := significant.length + exponent
  if significant.isEmpty || magnitude < 309 then false
  else if magnitude > 309 then true
  else
    let value := digitsValue significant
    if exponent < 0 then overflowLimit * Nat.pow 10 exponent.natAbs ≤ value
    else overflowLimit ≤ value * Nat.pow 10 exponent.toNat

/-- The nearest number that double precision holds, of two the one that ends in a zero bit. -/
def rounded (value : Nat) : Nat :=
  let shift := value.log2 + 1 - precision
  let unit := Nat.pow 2 shift
  let quotient := value / unit
  let isUp := unit < 2 * (value % unit) || (2 * (value % unit) = unit && quotient % 2 = 1)
  (if isUp then quotient + 1 else quotient) * unit

/-- The greatest exponent of ten that double precision holds. -/
def greatestExponent : Int := 308

/-- Whether a product of a number and a power of ten overflows if both factors are rounded before.
-/
def productOverflows (value : Nat) (exponent : Int) : Bool :=
  if value = 0 || exponent < 0 then false
  else if exponent > greatestExponent then true
  else overflowLimit ≤ rounded value * rounded (Nat.pow 10 exponent.toNat)

end Stubwright.Decimal
