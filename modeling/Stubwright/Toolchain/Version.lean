import Stubwright.Text.Pieces
import Stubwright.Toolchain.Fault

namespace Stubwright.Toolchain

open Text

def quoted? (line : List Char) : Option (List Char) :=
  match line.dropWhile (· != '"') with
  | [] => none
  | _ :: rest =>
      match rest.dropWhile (· != '"') with
      | [] => none
      | _ :: _ => some (rest.takeWhile (· != '"'))

def versionToken? (report : List Char) : Option (List Char) :=
  (lines report).findSome? quoted?

def greatestVersion : Nat := Nat.pow 2 32 - 1

def withDigit? (number : Nat) (digit : Char) : Option Nat :=
  let longer := number * 10 + (digit.toNat - '0'.toNat)
  if longer ≤ greatestVersion then some longer else none

def number? (digits : List Char) : Option Nat :=
  if digits.isEmpty then none else digits.foldlM withDigit? 0

/-- What ends the number of an old version. -/
def separators : List Char := ['.', '_', '-']

/-- Old versions have their number behind `1.`. -/
def majorOf? : List Char → Option Nat
  | '1' :: '.' :: rest =>
      number? ((rest.takeWhile (!separators.contains ·)).takeWhile Char.isDigit)
  | token => number? (token.takeWhile Char.isDigit)

def reportedVersion (report : List Char) : Except VersionFault Nat :=
  match versionToken? report with
  | none => .error .noToken
  | some token =>
      match majorOf? token with
      | some version => .ok version
      | none => .error .badToken

end Stubwright.Toolchain
