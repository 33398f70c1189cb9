import Stubwright.Shell.Syntax

/-!
The text of a script while it is read. Line ends behind a backslash join two lines and are skipped
wherever they do not stand between single quotes. Lines are counted for complaints.
-/
namespace Stubwright.Shell

structure SyntaxFault where
  line : Nat
  message : String
deriving DecidableEq, Repr

structure Delimiter where
  line : List Char
  /-- Whether tabs in front of a line do not count. -/
  dropsTabs : Bool

structure Source where
  text : List Char
  line : Nat
  /-- How many lines were taken out of the text behind the current one, how much text is left
  behind those, and what is wrong with them. -/
  heldLines : Nat
  heldBehind : Nat
  heldFault : Option SyntaxFault
  pushed : Option Token
  /-- Texts that some names stand for at the beginning of a command. -/
  aliases : List (String × List Char)
  /-- Names whose texts are being read, with how much text is behind those. -/
  unfolding : List (String × Nat)
  /-- How much text is behind a text that ends in a blank: the next word is looked up too. -/
  lookup : Option Nat
  /-- What ends the text, if that is a line in it, and what was found behind that line. -/
  delimiter : Option Delimiter
  behind : List Char

def Source.ofText (text : List Char) : Source :=
  { text, line := 1, heldLines := 0, heldBehind := 0, heldFault := none, pushed := none,
    aliases := [], unfolding := [], lookup := none, delimiter := none, behind := [] }

abbrev Reading (α : Type) := StateT Source (Except SyntaxFault) α

def reject (message : String) : Reading α := fun source =>
  .error ⟨source.line, message⟩

/-- What a reading would give from here on, or `otherwise` if it fails. Nothing is taken. -/
def ahead (reading : Reading α) (otherwise : α) : Reading α := fun source =>
  match reading source with
  | .ok (value, _) => .ok (value, source)
  | .error _ => .ok (otherwise, source)

def unjoined : List Char → Nat × List Char
  | '\\' :: '\n' :: rest =>
      let (count, rest) := unjoined rest
      (count + 1, rest)
  | text => (0, text)

def peek : Reading (Option Char) := fun source =>
  let (count, text) := unjoined source.text
  .ok (text.head?, { source with text, line := source.line + count })

def take : Reading (Option Char) := fun source =>
  match source.text with
  | [] => .ok (none, source)
  | c :: rest =>
      let lines := if c = '\n' then 1 else 0
      .ok (some c, { source with text := rest, line := source.line + lines })

/-- Comes to the lines that were taken out of the text, if they stood in front of what is left. -/
def passHeld : Reading Unit := fun source =>
  if source.heldBehind < source.text.length then .ok ((), source)
  else
    match source.heldFault with
    | some fault => .error fault
    | none => .ok ((), { source with line := source.line + source.heldLines, heldLines := 0 })

def skip : Reading Unit := do
  let _ ← take

def drop : Reading Unit :=
  modify fun source => { source with text := source.text.drop 1 }

def endAtDelimiter : Reading Unit :=
  modify fun source =>
    match source.delimiter with
    | none => source
    | some delimiter =>
        let text :=
          if delimiter.dropsTabs then source.text.dropWhile (· = '\t') else source.text
        let line := text.takeWhile (· != '\n')
        if line = delimiter.line then
          { source with text := [], behind := text.drop (line.length + 1), line := source.line + 1 }
        else { source with text }

def takeAll (accepts : Char → Bool) : Reading (List Char) := fun source =>
  let run := source.text.takeWhile accepts
  let lines := run.count '\n'
  .ok (run, { source with text := source.text.dropWhile accepts, line := source.line + lines })

def takeName (accepts : Char → Bool) : (steps : Nat) → Reading (List Char)
  | 0 => pure []
  | steps + 1 => do
      match ← peek with
      | some c =>
          if accepts c then
            skip
            pure (c :: (← takeName accepts steps))
          else pure []
      | none => pure []

def takeIf (c : Char) : Reading Bool := do
  if (← peek) = some c then
    skip
    pure true
  else pure false

end Stubwright.Shell
