import Stubwright.Shell.Fraction

namespace Stubwright.Shell

def isOctal (c : Char) : Bool :=
  '0' ≤ c && c ≤ '7'

def octetOf (digits : List Char) : Char :=
  Char.ofNat (digits.foldl (fun total c => total * 8 + digitValue c) 0 % 256)

def escaped? : Char → Option Char
  | 'n' => some '\n'
  | 't' => some '\t'
  | 'r' => some '\r'
  | 'a' => some '\x07'
  | 'b' => some '\x08'
  | 'f' => some '\x0c'
  | 'v' => some '\x0b'
  | 'e' => some '\x1b'
  | '\\' => some '\\'
  | _ => none

def escapeAtFront (text : List Char) : Char × Nat :=
  let digits := (text.take 3).takeWhile isOctal
  if !digits.isEmpty then (octetOf digits, digits.length)
  else
    match text.head?.bind escaped? with
    | some c => (c, 1)
    | none => ('\\', 0)

def unescape : (steps : Nat) → List Char → Value × Bool
  | 0, _ => ([], false)
  | _ + 1, [] => ([], false)
  | _ + 1, '\\' :: 'c' :: _ => ([], true)
  | steps + 1, '\\' :: '0' :: rest =>
      let digits := (rest.take 3).takeWhile isOctal
      let (others, ends) := unescape steps (rest.drop digits.length)
      (octetOf digits :: others, ends)
  | steps + 1, '\\' :: rest =>
      let (c, count) := escapeAtFront rest
      let (others, ends) := unescape steps (rest.drop count)
      (c :: others, ends)
  | steps + 1, c :: rest =>
      let (others, ends) := unescape steps rest
      (c :: others, ends)

def echoedFrom (isOpen : Bool) : List Value → Value
  | [] => if isOpen then [] else ['\n']
  | argument :: others =>
      let (text, ends) := unescape (argument.length + 1) argument
      if ends then text
      else text ++ (if others.isEmpty then [] else [' ']) ++ echoedFrom isOpen others

def echoed : List Value → Value
  | ['-', 'n'] :: arguments => echoedFrom true arguments
  | arguments => echoedFrom false arguments

structure Shape where
  flags : List Char
  width : Nat
  places : Option Nat
deriving DecidableEq, Repr

namespace Shape

def padded (shape : Shape) (text : Value) : Value :=
  let gap := List.replicate (shape.width - text.length) ' '
  if shape.flags.contains '-' then text ++ gap else gap ++ text

def ofText (shape : Shape) (text : Value) : Value :=
  shape.padded (match shape.places with
    | some places => text.take places
    | none => text)

def ofDigits (shape : Shape) (sign digits : Value) : Value :=
  let places := shape.places.getD 1
  let digits := if digits = ['0'] && shape.places = some 0 then [] else digits
  let digits := List.replicate (places - digits.length) '0' ++ digits
  let fills := shape.flags.contains '0' && !shape.flags.contains '-' && shape.places.isNone
  if fills then
    sign ++ List.replicate (shape.width - sign.length - digits.length) '0' ++ digits
  else shape.padded (sign ++ digits)

def ofInt (shape : Shape) (number : Int) : Value :=
  let sign :=
    if number < 0 then ['-']
    else if shape.flags.contains '+' then ['+']
    else if shape.flags.contains ' ' then [' ']
    else []
  shape.ofDigits sign (toString number.natAbs).toList

def ofNat (shape : Shape) (letter : Char) (number : Nat) : Value :=
  let marked := shape.flags.contains '#' && number != 0
  match letter with
  | 'o' =>
      let digits := Nat.toDigits 8 number
      shape.ofDigits [] (if marked then '0' :: digits else digits)
  | 'x' => shape.ofDigits (if marked then ['0', 'x'] else []) (Nat.toDigits 16 number)
  | 'X' =>
      shape.ofDigits (if marked then ['0', 'X'] else [])
        ((Nat.toDigits 16 number).map Char.toUpper)
  | _ => shape.ofDigits [] (Nat.toDigits 10 number)

def ofMagnitude (shape : Shape) (letter : Char) (isNegative : Bool) (magnitude : Magnitude) :
    Value :=
  let sign :=
    if isNegative then ['-']
    else if shape.flags.contains '+' then ['+']
    else if shape.flags.contains ' ' then [' ']
    else []
  let text := magnitudeText magnitude letter.toLower shape.places (shape.flags.contains '#')
  let isFinite := match magnitude with
    | .finite .. => true
    | _ => false
  let sign := if letter.toLower = 'a' && isFinite then sign ++ ['0', 'x'] else sign
  let (sign, text) :=
    if letter.isUpper then (sign.map Char.toUpper, text.map Char.toUpper) else (sign, text)
  let fills := shape.flags.contains '0' && !shape.flags.contains '-' && isFinite
  if fills then sign ++ List.replicate (shape.width - sign.length - text.length) '0' ++ text
  else shape.padded (sign ++ text)

end Shape

structure Printout where
  text : Value
  complaints : List Value
  isOver : Bool
  fault : Option Value

namespace Printout

def empty : Printout := ⟨[], [], false, none⟩

def add (printout : Printout) (text : Value) : Printout :=
  { printout with text := printout.text ++ text }

def object (printout : Printout) (complaint : Value) : Printout :=
  { printout with complaints := printout.complaints ++ [complaint] }

def stop (printout : Printout) (fault : Option Value) : Printout :=
  { printout with isOver := true, fault }

end Printout

/-- An argument as a number. A quote in front stands for the number of the next character; what is
no number counts as far as it is one. -/
def numberArgument (argument : Value) (isSigned : Bool) : Int × Option Value :=
  match argument with
  | '"' :: c :: _ | '\'' :: c :: _ => (c.toNat, none)
  | ['"'] | ['\''] => (0, none)
  | _ =>
      let text := argument.dropWhile isBlank
      let (isNegative, digits) := match text with
        | '-' :: rest => (true, rest)
        | '+' :: rest => (false, rest)
        | _ => (false, text)
      match numberAtFront digits with
      | none =>
          let complaint := argument ++ octets ": expected numeric value"
          (0, if argument.isEmpty then none else some complaint)
      | some (size, rest) =>
          let most :=
            if !isSigned then Nat.pow 2 64 - 1
            else if isNegative then greatestNumber + 1
            else greatestNumber
          let number : Int := min size most
          let number := if isNegative then -number else number
          let complaint :=
            if !rest.isEmpty then some (argument ++ octets ": not completely converted")
            else if size > most then
              some (argument ++ octets ": Numerical result out of range")
            else none
          (number, complaint)

def magnitudeArgument (argument : Value) : Bool × Magnitude × Option Value :=
  match argument with
  | '"' :: c :: _ | '\'' :: c :: _ => (false, .finite c.toNat 0, none)
  | ['"'] | ['\''] | [] => (false, .finite 0 0, none)
  | _ =>
      let text := argument.dropWhile isBlank
      let (isNegative, digits) := match text with
        | '-' :: rest => (true, rest)
        | '+' :: rest => (false, rest)
        | _ => (false, text)
      match magnitudeAtFront digits with
      | none => (false, .finite 0 0, some (argument ++ octets ": expected numeric value"))
      | some (magnitude, isExtreme, rest) =>
          let complaint :=
            if !rest.isEmpty then some (argument ++ octets ": not completely converted")
            else if isExtreme then some (argument ++ octets ": Numerical result out of range")
            else none
          (isNegative, magnitude, complaint)

def sizeAtFront (format : List Char) (arguments : List Value) :
    Int × Option Value × List Value × List Char :=
  match format with
  | '*' :: rest =>
      let (number, complaint) := numberArgument (arguments.headD []) true
      (number, complaint, arguments.drop 1, rest)
  | _ =>
      let digits := format.takeWhile Char.isDigit
      (((String.ofList digits).toNat?.getD 0 : Nat), none, arguments, format.drop digits.length)

def shapeAtFront (format : List Char) (arguments : List Value) :
    Shape × List Value × List Value × List Char :=
  let flags := format.takeWhile "#-+ 0".toList.contains
  let (width, complaint, arguments, format) := sizeAtFront (format.drop flags.length) arguments
  let flags := if width < 0 then '-' :: flags else flags
  match format with
  | '.' :: rest =>
      let (places, another, arguments, format) := sizeAtFront rest arguments
      (⟨flags, width.natAbs, if places < 0 then none else some places.toNat⟩,
        complaint.toList ++ another.toList, arguments, format)
  | _ => (⟨flags, width.natAbs, none⟩, complaint.toList, arguments, format)

/-- One pass over a format; a conversion without an argument prints nothing or zero. -/
def formatOnce : (steps : Nat) → List Char → List Value → Printout → Printout × List Value
  | 0, _, arguments, printout => (printout, arguments)
  | _ + 1, [], arguments, printout => (printout, arguments)
  | steps + 1, '%' :: '%' :: rest, arguments, printout =>
      formatOnce steps rest arguments (printout.add ['%'])
  | steps + 1, '%' :: rest, arguments, printout =>
      let (shape, complaints, arguments, behind) := shapeAtFront rest arguments
      let printout := complaints.foldl .object printout
      let argument := arguments.headD []
      let remaining := arguments.drop 1
      match behind with
      | [] =>
          (printout.stop (some (octets "missing format character")), arguments)
      | letter :: behind =>
          let numeric (isSigned : Bool) (show_ : Int → Value) : Printout × List Value :=
            let (number, complaint) := numberArgument argument isSigned
            let printout := match complaint with
              | some complaint => printout.object complaint
              | none => printout
            formatOnce steps behind remaining (printout.add (show_ number))
          match letter with
          | 's' => formatOnce steps behind remaining (printout.add (shape.ofText argument))
          | 'b' =>
              let (text, ends) := unescape (argument.length + 1) argument
              let printout := printout.add (shape.ofText text)
              if ends then (printout.stop none, remaining)
              else formatOnce steps behind remaining printout
          | 'c' =>
              let c := argument.headD '\x00'
              formatOnce steps behind remaining (printout.add (shape.padded [c]))
          | 'd' | 'i' => numeric true shape.ofInt
          | 'f' | 'F' | 'e' | 'E' | 'g' | 'G' | 'a' | 'A' =>
              let (isNegative, magnitude, complaint) := magnitudeArgument argument
              let printout := match complaint with
                | some complaint => printout.object complaint
                | none => printout
              let text := shape.ofMagnitude letter isNegative magnitude
              formatOnce steps behind remaining (printout.add text)
          | 'o' | 'u' | 'x' | 'X' =>
              numeric false fun number => shape.ofNat letter (unsigned number)
          | _ =>
              let directive := '%' :: rest.take (rest.length - behind.length)
              (printout.stop (some (directive ++ octets ": invalid directive")), remaining)
  | steps + 1, '\\' :: rest, arguments, printout =>
      let (c, count) := escapeAtFront rest
      formatOnce steps (rest.drop count) arguments (printout.add [c])
  | steps + 1, c :: rest, arguments, printout =>
      formatOnce steps rest arguments (printout.add [c])

def formatAll (format : List Char) : (steps : Nat) → List Value → Printout → Printout
  | 0, _, printout => printout
  | steps + 1, arguments, printout =>
      let (printout, remaining) := formatOnce (format.length + 1) format arguments printout
      if printout.isOver || remaining.isEmpty || remaining.length = arguments.length then printout
      else formatAll format steps remaining printout

def printed (format : Value) (arguments : List Value) : Printout :=
  formatAll format (arguments.length + 1) arguments .empty

end Stubwright.Shell
