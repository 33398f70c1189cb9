import Stubwright.Json.Text
import Stubwright.Json.Numeral

namespace Stubwright.Json

def isSpace (c : Char) : Bool :=
  c == ' ' || c == '\n' || c == '\t' || c == '\r'

def skipSpace (text : List Char) : List Char :=
  text.dropWhile isSpace

def readWord (lead : Char) (value : Json) : List Char → List Char → Json × Option (List Char)
  | [], rest => (value, some rest)
  | _ :: _, [] => (.broken .ended .ended (some lead), none)
  | c :: word, d :: rest =>
      if c = d then readWord lead value word rest
      else (.broken .malformed .malformed (some lead), none)

def brokenMember (onRead onSkip : Fault) : Members :=
  .member (.error onRead) (.broken onRead onSkip none) .closed

mutual

def readValue : Nat → List Char → Json × Option (List Char)
  | 0, _ => (.broken .ended .ended none, none)
  | fuel + 1, chars =>
      match skipSpace chars with
      | [] => (.broken .ended .ended none, none)
      | 'n' :: rest => readWord 'n' .null ['u', 'l', 'l'] rest
      | 't' :: rest => readWord 't' (.bool true) ['r', 'u', 'e'] rest
      | 'f' :: rest => readWord 'f' (.bool false) ['a', 'l', 's', 'e'] rest
      | '"' :: rest =>
          match readText rest with
          | .closed content rest => (.text content, some rest)
          | .broken onRead onSkip => (.broken onRead onSkip (some '"'), none)
      | '[' :: rest =>
          let (items, rest) := readFirstItem fuel rest
          (.array items, rest)
      | '\x7b' :: rest =>
          let (members, rest) := readFirstMember fuel rest
          (.object members, rest)
      | c :: rest =>
          if c = '-' || Decimal.isDigit c then
            match readNumber (c :: rest) with
            | .complete value rest => (.number value, some rest)
            | .broken onRead onSkip => (.broken onRead onSkip (some c), none)
          else (.broken .malformed .malformed (some c), none)

def readFirstItem : Nat → List Char → Items × Option (List Char)
  | 0, _ => (.broken .ended, none)
  | fuel + 1, chars =>
      match skipSpace chars with
      | [] => (.broken .ended, none)
      | ']' :: rest => (.closed, some rest)
      | _ => readItem fuel chars

def readItem : Nat → List Char → Items × Option (List Char)
  | 0, _ => (.broken .ended, none)
  | fuel + 1, chars =>
      match readValue fuel chars with
      | (value, none) => (.item value .closed, none)
      | (value, some rest) =>
          match skipSpace rest with
          | [] => (.item value (.broken .ended), none)
          | ']' :: rest => (.item value .closed, some rest)
          | ',' :: rest =>
              let (items, rest) := readItem fuel rest
              (.item value items, rest)
          | _ => (.item value (.broken .malformed), none)

def readFirstMember : Nat → List Char → Members × Option (List Char)
  | 0, _ => (.broken .ended, none)
  | fuel + 1, chars =>
      match skipSpace chars with
      | [] => (.broken .ended, none)
      | '\x7d' :: rest => (.closed, some rest)
      | _ => readMember fuel chars

def readMember : Nat → List Char → Members × Option (List Char)
  | 0, _ => (.broken .ended, none)
  | fuel + 1, chars =>
      match skipSpace chars with
      | [] => (brokenMember .ended .ended, none)
      | '"' :: rest =>
          match readText rest with
          | .broken onRead onSkip => (brokenMember onRead onSkip, none)
          | .closed key rest =>
              match skipSpace rest with
              | [] => (.member key (.broken .ended .ended none) .closed, none)
              | ':' :: rest =>
                  match readValue fuel rest with
                  | (value, none) => (.member key value .closed, none)
                  | (value, some rest) =>
                      match skipSpace rest with
                      | [] => (.member key value (.broken .ended), none)
                      | '\x7d' :: rest => (.member key value .closed, some rest)
                      | ',' :: rest =>
                          let (members, rest) := readMember fuel rest
                          (.member key value members, rest)
                      | _ => (.member key value (.broken .malformed), none)
              | _ => (.member key (.broken .malformed .malformed none) .closed, none)
      | _ => (brokenMember .malformed .malformed, none)

end

/-- The value of a text and whether anything but blanks follows it. A bracket takes three steps: as
the beginning of a value, as that of a list, and on to the first part. All else takes fewer, so
three times the length is enough. -/
def ofText (text : List Char) : Json × Bool :=
  match readValue (3 * text.length + 3) text with
  | (value, none) => (value, false)
  | (value, some rest) => (value, !(skipSpace rest).isEmpty)

end Stubwright.Json
