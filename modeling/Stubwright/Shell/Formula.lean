import Stubwright.Shell.Process

namespace Stubwright.Shell

inductive Symbol where
  | number (value : Int)
  | name (text : String)
  | sign (text : String)
  | odd
deriving DecidableEq, Repr

def digitValue (c : Char) : Nat :=
  if c.isDigit then c.toNat - '0'.toNat
  else if 'a' ≤ c && c ≤ 'z' then c.toNat - 'a'.toNat + 10
  else if 'A' ≤ c && c ≤ 'Z' then c.toNat - 'A'.toNat + 10
  else 36

def greatestNumber : Nat := Nat.pow 2 63 - 1

/-- A number in front of a text, in base ten, eight, or sixteen as its first digits say, and the
text behind it. -/
def numberAtFront (text : List Char) : Option (Nat × List Char) :=
  let inBase (base : Nat) (text : List Char) : Nat × List Char :=
    let digits := text.takeWhile fun c => digitValue c < base
    (digits.foldl (fun total c => total * base + digitValue c) 0,
      text.drop digits.length)
  match text with
  | '0' :: x :: c :: rest =>
      if (x = 'x' || x = 'X') && digitValue c < 16 then some (inBase 16 (c :: rest))
      else some (inBase 8 text)
  | '0' :: _ => some (inBase 8 text)
  | c :: _ => if c.isDigit then some (inBase 10 text) else none
  | [] => none

def signs : List String :=
  ["<<=", ">>=", "<<", ">>", "<=", ">=", "==", "!=", "&&", "||", "+=", "-=", "*=", "/=", "%=", "&=",
    "|=", "^=", "(", ")", "+", "-", "*", "/", "%", "<", ">", "=", "&", "|", "^", "!", "~", "?", ":"]

def symbols : (steps : Nat) → List Char → List Symbol
  | 0, _ => []
  | steps + 1, text =>
      match text.dropWhile isBlank with
      | [] => []
      | c :: rest =>
          match numberAtFront (c :: rest) with
          | some (value, rest) => .number (min value greatestNumber) :: symbols steps rest
          | none =>
              if isNameStart c then
                .name (String.ofList ((c :: rest).takeWhile isNamePart))
                  :: symbols steps ((c :: rest).dropWhile isNamePart)
              else
                match signs.find? (·.toList.isPrefixOf (c :: rest)) with
                | some sign => .sign sign :: symbols steps ((c :: rest).drop sign.length)
                | none => [.odd]

def tightness : List (List String) :=
  [["*", "/", "%"], ["+", "-"], ["<<", ">>"], ["<", "<=", ">", ">="], ["==", "!="], ["&"], ["^"],
    ["|"]]

def rank? (sign : String) : Option Nat :=
  tightness.findIdx? (·.contains sign)

def truth (isTrue : Bool) : Int :=
  if isTrue then 1 else 0

def unsigned (number : Int) : Nat :=
  (number % Int.pow 2 64).toNat

def combine (sign : String) (a b : Int) : Int :=
  match sign with
  | "*" => wrapped (a * b)
  | "/" => wrapped (a.tdiv b)
  | "%" => wrapped (a.tmod b)
  | "+" => wrapped (a + b)
  | "-" => wrapped (a - b)
  | "<<" => wrapped (a * Int.pow 2 (unsigned b % 64))
  | ">>" => a >>> (unsigned b % 64)
  | "<" => truth (a < b)
  | "<=" => truth (a ≤ b)
  | ">" => truth (a > b)
  | ">=" => truth (a ≥ b)
  | "==" => truth (a = b)
  | "!=" => truth (a != b)
  | "&" => wrapped (unsigned a &&& unsigned b : Nat)
  | "^" => wrapped (unsigned a ^^^ unsigned b : Nat)
  | _ => wrapped (unsigned a ||| unsigned b : Nat)

/-- A value as a number; an empty one counts as zero. -/
def numberOf? (value : Value) : Option Int :=
  let text := value.dropWhile isBlank
  let (isNegative, digits) := match text with
    | '-' :: rest => (true, rest)
    | '+' :: rest => (false, rest)
    | _ => (false, text)
  match numberAtFront digits with
  | some (size, rest) =>
      if rest.all isBlank && size ≤ greatestNumber then
        some (if isNegative then -size else size)
      else none
  | none => if value.all isBlank then some 0 else none

def numberOfVariable (name : String) : Running Int := do
  let value := ((← process).value? name).getD []
  match numberOf? value with
  | some number => pure number
  | none => fail (octets "Illegal number: " ++ value)

abbrev Calculating (α : Type) := StateT (List Symbol) Running α

def complain (text : Value) (message : String) : Calculating α :=
  fail (octets ("arithmetic expression: " ++ message ++ ": \"") ++ text ++ ['"'])

def takeSign (wanted : List String) : Calculating (Option String) := do
  match ← get with
  | .sign sign :: rest =>
      if wanted.contains sign then
        set rest
        pure (some sign)
      else pure none
  | _ => pure none

def applied (text : Value) (counts : Bool) (sign : String) (a b : Int) : Calculating Int := do
  if !counts then pure b
  else if b = 0 && (sign = "/" || sign = "%") then complain text "division by zero"
  else pure (combine sign a b)

def assignmentSigns : List String :=
  ["=", "+=", "-=", "*=", "/=", "%=", "<<=", ">>=", "&=", "|=", "^="]

mutual

def primary (text : Value) : (steps : Nat) → (counts : Bool) → Calculating Int
  | 0, _ => complain text "expecting primary"
  | steps + 1, counts => do
      match ← get with
      | .number value :: rest =>
          set rest
          pure value
      | .name name :: rest =>
          set rest
          if counts then numberOfVariable name else pure 0
      | .sign "(" :: rest =>
          set rest
          let value ← assignment text steps counts
          match ← takeSign [")"] with
          | some _ => pure value
          | none => complain text "expecting ')'"
      | .sign "+" :: rest =>
          set rest
          primary text steps counts
      | .sign "-" :: rest =>
          set rest
          pure (wrapped (-(← primary text steps counts)))
      | .sign "!" :: rest =>
          set rest
          pure (truth ((← primary text steps counts) = 0))
      | .sign "~" :: rest =>
          set rest
          pure (-(← primary text steps counts) - 1)
      | _ => complain text "expecting primary"

def binary (text : Value) : (steps : Nat) → (counts : Bool) → (ranks : Nat) → Calculating Int
  | 0, _, _ => complain text "expecting primary"
  | steps + 1, counts, ranks => do
      binaryFrom text steps counts ranks (← primary text steps counts)

def binaryFrom (text : Value) :
    (steps : Nat) → (counts : Bool) → (ranks : Nat) → Int → Calculating Int
  | 0, _, _, _ => complain text "expecting primary"
  | steps + 1, counts, ranks, a => do
      match ← takeSign (tightness.take ranks).flatten with
      | none => pure a
      | some sign =>
          let b ← binary text steps counts ((rank? sign).getD 0)
          binaryFrom text steps counts ranks (← applied text counts sign a b)

def conjunction (text : Value) : (steps : Nat) → (counts : Bool) → Calculating Int
  | 0, _ => complain text "expecting primary"
  | steps + 1, counts => do
      let a ← binary text steps counts tightness.length
      match ← takeSign ["&&"] with
      | none => pure a
      | some _ =>
          let b ← conjunction text steps (counts && a != 0)
          pure (truth (a != 0 && b != 0))

def disjunction (text : Value) : (steps : Nat) → (counts : Bool) → Calculating Int
  | 0, _ => complain text "expecting primary"
  | steps + 1, counts => do
      let a ← conjunction text steps counts
      match ← takeSign ["||"] with
      | none => pure a
      | some _ =>
          let b ← disjunction text steps (counts && a = 0)
          pure (truth (a != 0 || b != 0))

def conditional (text : Value) : (steps : Nat) → (counts : Bool) → Calculating Int
  | 0, _ => complain text "expecting primary"
  | steps + 1, counts => do
      let a ← disjunction text steps counts
      match ← takeSign ["?"] with
      | none => pure a
      | some _ =>
          let b ← assignment text steps (counts && a != 0)
          match ← takeSign [":"] with
          | none => complain text "expecting ':'"
          | some _ =>
              let c ← conditional text steps (counts && a = 0)
              pure (if a != 0 then b else c)

def assignment (text : Value) : (steps : Nat) → (counts : Bool) → Calculating Int
  | 0, _ => complain text "expecting primary"
  | steps + 1, counts => do
      match ← get with
      | .name name :: .sign sign :: rest =>
          if !assignmentSigns.contains sign then conditional text steps counts
          else
            set rest
            let result ← assignment text steps counts
            if !counts then pure result
            else
              let value ←
                if sign = "=" then pure result
                else
                  let sign := String.ofList sign.toList.dropLast
                  applied text true sign (← numberOfVariable name) result
              assign name (octets (toString value))
              pure value
      | _ => conditional text steps counts

end

def formulaValue (text : Value) : Running Int := do
  let all := symbols (text.length + 1) text
  let whole : Calculating Int := do
    let value ← assignment text (16 * text.length + 16) true
    if !(← get).isEmpty then complain text "expecting EOF"
    pure value
  whole.run' all

end Stubwright.Shell
