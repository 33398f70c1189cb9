import Stubwright.Failure
import Stubwright.Text.Blank

namespace Stubwright

open Text

inductive LogLevel where
  | off | error | warn | info | debug | trace
deriving DecidableEq, Repr

namespace LogLevel

/-- Each level is told more than the ones before it. -/
def all : List LogLevel :=
  [off, error, warn, info, debug, trace]

def name : LogLevel → String
  | off => "off"
  | error => "error"
  | warn => "warn"
  | info => "info"
  | debug => "debug"
  | trace => "trace"

def default : LogLevel := warn

def digitsOf (text : List Char) : Option (List Char) :=
  let digits := match text with
    | '+' :: rest => rest
    | _ => text
  if digits.isEmpty || !digits.all Char.isDigit then none else some digits

def ofNumber? (text : List Char) : Option LogLevel :=
  (digitsOf text).bind fun digits =>
    all[digits.foldl (fun total c => total * 10 + (c.toNat - '0'.toNat)) 0]?

/-- The level that a text without blanks around it means. The empty text means errors. -/
def ofText? (text : List Char) : Option LogLevel :=
  if text.isEmpty then some error
  else
    (ofNumber? text).or (all.find? fun level => level.name.toList == text.map Char.toLower)

def resolve : (wanted : Option String) → Except Failure LogLevel
  | none => .ok default
  | some text =>
      match ofText? (trim text.toList) with
      | some level => .ok level
      | none => .error (.invalidArgument (.badLogLevel (trimmed text)))

end LogLevel

end Stubwright
