import Stubwright.Shell.Builtin.Variables

namespace Stubwright.Shell

open Disk Text

/-- The fields of a line, whose characters come with whether they were quoted. There are at most
`count`, and the last of them is all that is left, but without separators at its end if they end
nothing but one field. -/
def fieldsUpTo (separators : Value) : (count : Nat) → List (Char × Bool) → List Value
  | 0, _ => []
  | count + 1, line =>
      let line := line.dropWhile isBlankSeparator
      if line.isEmpty then []
      else
        let field := line.takeWhile fun c => !isSeparator c
        let ending := line.dropWhile fun c => !isSeparator c
        let blanks := ending.dropWhile isBlankSeparator
        let behind :=
          if blanks.head?.any isSeparator then blanks.drop 1 else blanks
        if count > 0 then field.map (·.1) :: fieldsUpTo separators count behind
        else if (behind.dropWhile isBlankSeparator).isEmpty then [field.map (·.1)]
        else [(line.reverse.dropWhile isBlankSeparator).reverse.map (·.1)]
where
  isSeparator (c : Char × Bool) : Bool := !c.2 && separators.contains c.1
  isBlankSeparator (c : Char × Bool) : Bool := isSeparator c && [' ', '\t', '\n'].contains c.1

/-- A line of octets, the number of octets it takes, and whether it was ended. A backslash quotes
the next character and joins lines, unless the line is taken as it is. -/
def lineAtFront (isRaw : Bool) : List Char → List (Char × Bool) × Nat × Bool
  | [] => ([], 0, false)
  | '\n' :: _ => ([], 1, true)
  | '\\' :: c :: rest =>
      if isRaw then
        let (line, count, isEnded) := lineAtFront isRaw (c :: rest)
        (('\\', false) :: line, count + 1, isEnded)
      else
        let (line, count, isEnded) := lineAtFront isRaw rest
        (if c = '\n' then line else (c, true) :: line, count + 2, isEnded)
  | c :: rest =>
      let (line, count, isEnded) := lineAtFront isRaw rest
      (if c = '\x00' || (c = '\\' && !isRaw) then line else (c, false) :: line, count + 1, isEnded)

def readLine (arguments : List Value) : Running Nat := do
  let steps := (arguments.map (·.length + 1)).foldl (· + ·) 1
  let (options, names) ← optionsOf ['r'] ['p'] steps arguments
  if names.isEmpty then fail (octets "arg count")
  let available := (← unread 0).getD []
  let (line, count, isEnded) := lineAtFront (options.any (·.1 = 'r')) (Octets.ofBytes available)
  advance 0 count
  let fields := fieldsUpTo (← process).separators names.length line
  for (name, index) in names.zipIdx do
    let name := Octets.toText (name.takeWhile (· != '='))
    checkName name
    assign name (fields.getD index [])
  pure (if isEnded then 0 else 1)

structure OptionStep where
  letter : Char
  argument : Option Value
  complaint : Option Value
  index : Nat
  place : Option Nat
  isDone : Bool

def nextOption (known : List Char) (words : List Value) (index : Nat) (place : Option Nat) :
    OptionStep :=
  let current := match place with
    | some place => if index ≤ 1 then [] else (words.getD (index - 2) []).drop place
    | none => []
  let start : Option (List Char × Nat) :=
    if !current.isEmpty then some (current, index)
    else
      match words[index - 1]? with
      | some ['-', '-'] => none
      | some ('-' :: c :: more) => some (c :: more, index + 1)
      | _ => none
  match start with
  | none =>
      let skips := current.isEmpty && words[index - 1]? = some ['-', '-']
      ⟨'?', none, none, if skips then index + 1 else index, none, true⟩
  | some (text, index) =>
      let letter := text.headD '?'
      let rest := text.drop 1
      let isQuiet := known.head? = some ':'
      let placeOf (rest : List Char) : Option Nat :=
        some ((words.getD (index - 2) []).length - rest.length)
      match if letter = ':' then [] else known.dropWhile (· != letter) with
      | [] =>
          if isQuiet then ⟨'?', some [letter], none, index, placeOf rest, false⟩
          else
            ⟨'?', none, some (octets "Illegal option -" ++ [letter]), index, placeOf rest, false⟩
      | _ :: ':' :: _ =>
          if !rest.isEmpty then ⟨letter, some rest, none, index, none, false⟩
          else
            match words[index - 1]? with
            | some value => ⟨letter, some value, none, index + 1, none, false⟩
            | none =>
                if isQuiet then ⟨':', some [letter], none, index, none, false⟩
                else
                  let complaint := octets "No arg for -" ++ [letter] ++ octets " option"
                  ⟨'?', none, some complaint, index, none, false⟩
      | _ => ⟨letter, some [], none, index, placeOf rest, false⟩

def takeOption (arguments : List Value) : Running Nat := do
  match arguments with
  | known :: name :: words =>
      let process ← process
      let words := if words.isEmpty then process.arguments else words
      let isInside := 0 < process.optionIndex && process.optionIndex ≤ words.length + 1
      let step :=
        if isInside then nextOption known words process.optionIndex process.optionPlace
        else nextOption known words 1 none
      -- If the option cannot be kept, the next one is the first again.
      let lost : Running Unit :=
        changeProcess fun process => { process with optionIndex := 0, optionPlace := none }
      match step.complaint with
      | some complaint =>
          let _ ← print 2 (complaint ++ ['\n'])
          changeProcess fun process => process.dropVariable "OPTARG"
      | none => pure ()
      match step.argument with
      | some argument => assign "OPTARG" argument
      | none => pure ()
      assign "OPTIND" (octets (toString step.index))
      lost
      let name := Octets.toText (name.takeWhile (· != '='))
      checkName name
      assign name [step.letter]
      changeProcess fun process =>
        { process with optionIndex := step.index, optionPlace := step.place }
      pure (if step.isDone then 1 else 0)
  | _ => fail (octets "Usage: getopts optstring var [arg...]")

end Stubwright.Shell
