import Stubwright.Shell.Process

namespace Stubwright.Shell.Utility

open Disk Text

structure OptionTable where
  /-- Letters that stand alone. -/
  alone : String
  /-- Letters that a value follows, in the same argument or in the next one. -/
  valued : String
  words : List (String × Char)
  stopsAtOperand : Bool

structure Request where
  options : List (Char × Value)
  operands : List Value

inductive OptionFault where
  | unknownLetter (letter : Char)
  | unknownWord (argument : Value)
  | lacksValue (letter : Char)
  | wordLacksValue (word : String)
  | wordTakesNone (word : String)
  | ambiguous (argument : Value) (words : List String)

def OptionFault.message : OptionFault → Value
  | unknownLetter letter => octets "invalid option -- '" ++ [letter, '\'']
  | unknownWord argument => octets "unrecognized option '" ++ argument ++ ['\'']
  | lacksValue letter => octets "option requires an argument -- '" ++ [letter, '\'']
  | wordLacksValue word => octets ("option '--" ++ word ++ "' requires an argument")
  | wordTakesNone word => octets ("option '--" ++ word ++ "' doesn't allow an argument")
  | ambiguous argument words =>
      octets "option '" ++ argument ++ octets "' is ambiguous; possibilities:" ++
        words.flatMap fun word => octets (" '--" ++ word ++ "'")

namespace Request

def has (request : Request) (letter : Char) : Bool :=
  request.options.any (·.1 = letter)

def hasAny (request : Request) (letters : String) : Bool :=
  letters.toList.any request.has

def value? (request : Request) (letter : Char) : Option Value :=
  (request.options.reverse.find? (·.1 = letter)).map (·.2)

def last? (request : Request) (letters : String) : Option Char :=
  (request.options.reverse.find? fun option => letters.toList.contains option.1).map (·.1)

end Request

/-- The options of one argument. The last one may wait for the next argument as its value. -/
structure Reading where
  options : List (Char × Value)
  waiting : Option (Char × OptionFault)

namespace OptionTable

def readLetters (table : OptionTable) : Value → Except OptionFault Reading
  | [] => .ok ⟨[], none⟩
  | letter :: rest =>
      if table.valued.toList.contains letter then
        if rest.isEmpty then .ok ⟨[], some (letter, .lacksValue letter)⟩
        else .ok ⟨[(letter, rest)], none⟩
      else if table.alone.toList.contains letter then
        match table.readLetters rest with
        | .ok reading => .ok { reading with options := (letter, []) :: reading.options }
        | .error fault => .error fault
      else .error (.unknownLetter letter)

def wordsFrom (table : OptionTable) (text : Value) : List (String × Char) :=
  match table.words.find? fun (word, _) => octets word = text with
  | some word => [word]
  | none => table.words.filter fun (word, _) => text.isPrefixOf (octets word)

def readWord (table : OptionTable) (argument : Value) : Except OptionFault Reading :=
  let text := argument.drop 2
  let name := text.takeWhile (· != '=')
  let value? := (text.dropWhile (· != '=')).tail?
  match table.wordsFrom name with
  | [] => .error (.unknownWord argument)
  | (word, letter) :: others =>
      if others.any (·.2 != letter) then
        .error (.ambiguous argument (word :: others.map (·.1)))
      else if table.valued.toList.contains letter then
        match value? with
        | some value => .ok ⟨[(letter, value)], none⟩
        | none => .ok ⟨[], some (letter, .wordLacksValue word)⟩
      else if value?.isSome then .error (.wordTakesNone word)
      else .ok ⟨[(letter, [])], none⟩

def readArgument? (table : OptionTable) (argument : Value) : Option (Except OptionFault Reading) :=
  match argument with
  | '-' :: '-' :: _ => some (table.readWord argument)
  | '-' :: letter :: letters => some (table.readLetters (letter :: letters))
  | _ => none

def read (table : OptionTable) : List Value → Except OptionFault Request
  | [] => .ok ⟨[], []⟩
  | argument :: others =>
      if argument = ['-', '-'] then .ok ⟨[], others⟩
      else
        match table.readArgument? argument with
        | none =>
            if table.stopsAtOperand then .ok ⟨[], argument :: others⟩
            else
              (table.read others).map fun request =>
                { request with operands := argument :: request.operands }
        | some (.error fault) => .error fault
        | some (.ok reading) =>
            match reading.waiting, others with
            | none, others =>
                (table.read others).map fun request =>
                  { request with options := reading.options ++ request.options }
            | some (_, fault), [] => .error fault
            | some (letter, _), value :: others =>
                (table.read others).map fun request =>
                  { request with options := reading.options ++ (letter, value) :: request.options }

end OptionTable

end Stubwright.Shell.Utility
