import Stubwright.Shell.Utility.Options

namespace Stubwright.Shell.Utility

open Disk Text

def complain (program message : Value) : Running Unit := do
  let _ ← print 2 (program ++ octets ": " ++ message ++ ['\n'])

def isShown (c : Char) : Bool :=
  ' ' ≤ c && c ≤ '~'

def escaped (c : Char) : Value :=
  match ("\x07\x08\x0c\n\r\t\x0b".toList.zip "abfnrtv".toList).lookup c with
  | some letter => ['\\', letter]
  | none => '\\' :: [c.toNat / 64, c.toNat / 8 % 8, c.toNat % 8].flatMap (Nat.toDigits 8)

/-- The rest of a text between quotes. `isOpen` within characters that cannot be shown. -/
def quotedRest : (isOpen : Bool) → Value → Value
  | _, [] => ['\'']
  | isOpen, c :: rest =>
      if c = '\'' then octets "'\\''" ++ quotedRest false rest
      else if isShown c then (if isOpen then octets "''" else []) ++ c :: quotedRest false rest
      else (if isOpen then [] else octets "'$'") ++ escaped c ++ quotedRest true rest

def quoted (text : Value) : Value :=
  let isPlain (c : Char) : Bool := isShown c && !"\"$\\\x60!".toList.contains c
  if text.contains '\'' && text.all isPlain then ['"'] ++ text ++ ['"']
  else '\'' :: quotedRest false text

def shownPath (path : Value) : Value :=
  let isOdd (c : Char) : Bool := " !\"$&'()*:;<=>?[\\^\x60|".toList.contains c || !isShown c
  let isSpecial := path.isEmpty || path.any isOdd ||
    (path.head?.map ['#', '~'].contains).getD false || path = ['\x7b'] || path = ['\x7d']
  if isSpecial then quoted path else path

def reason : Disk.Fault → Value
  | .system fault => octets fault.description
  | fault => octets fault.message

def complainAt (program : Value) (undone : String) (path : Value) (fault : Disk.Fault) :
    Running Unit :=
  complain program (octets undone ++ quoted path ++ octets ": " ++ reason fault)

def complainOf (program path : Value) (fault : Disk.Fault) : Running Unit :=
  complain program (shownPath path ++ octets ": " ++ reason fault)

def tell (message : Value) : Running Unit := do
  let _ ← print 1 (message ++ ['\n'])

def misuse (status : Nat) (program message : Value) : Running Nat := do
  complain program message
  let _ ← print 2
    (octets "Try '" ++ program ++ octets " --help' for more information.\n")
  pure status

def withRequest (table : OptionTable) (failure : Nat) (program : Value) (arguments : List Value)
    (act : Request → Running Nat) : Running Nat := do
  match table.read arguments with
  | .ok request => act request
  | .error fault => misuse failure program fault.message

def change (change : Disk.Change) : Running (Option Disk.Fault) := do
  let machine ← get
  match change machine.world with
  | .ok world =>
      set { machine with world }
      pure none
  | .error fault => pure (some fault)

/-- Does something to each argument, and fails if any of them fails. -/
def forEach (arguments : List α) (act : α → Running Bool) : Running Nat := do
  let results ← arguments.mapM act
  pure (if results.all id then 0 else 1)

def endsInSlash (path : Value) : Bool :=
  path.getLast? = some '/'

def withoutSlashes (path : Value) : Value :=
  let kept := (path.reverse.dropWhile (· = '/')).reverse
  if kept.isEmpty && !path.isEmpty then ['/'] else kept

def lastName (path : Value) : Value :=
  (cut '/' (withoutSlashes path)).getLastD []

def endsInStep (path : Value) : Bool :=
  lastName path = ['.'] || lastName path = ['.', '.']

/-- What is at a path. A link at its end counts itself, unless a slash follows it. -/
def spotAt (world : World) (path : Value) : Except Disk.Fault Spot :=
  if endsInSlash path then world.locate (Octets.toText path)
  else world.locateEntry (Octets.toText path)

def below (path name : Value) : Value :=
  if path.isEmpty || endsInSlash path then path ++ name else path ++ '/' :: name

end Stubwright.Shell.Utility
