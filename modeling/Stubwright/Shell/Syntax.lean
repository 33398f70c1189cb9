/-!
What shell scripts are made of. A word is a list of parts, since quotes decide what happens to each
of them later; parts may hold whole commands, and commands consist of words.
-/
namespace Stubwright.Shell

inductive Direction where
  | read
  | write
  /-- Also if files that are there should be kept. -/
  | overwrite
  | append
  | readWrite
  /-- From or to where another descriptor leads. -/
  | copy
  /-- From the text of the script itself. -/
  | document
deriving DecidableEq, Repr

inductive Fallback where
  | use
  | assign
  | complain
  /-- The other way round: the word counts if there is a value. -/
  | replace
deriving DecidableEq, Repr

mutual

inductive Part where
  | literal (content : List Char) (isQuoted : Bool)
  | parameter (name : String) (use : Use) (isQuoted : Bool)
  | output (command : Command) (isQuoted : Bool)
  | formula (expression : List Part) (isQuoted : Bool)

inductive Use where
  | value
  | length
  /-- A word instead of no value, or of an empty one too. -/
  | otherwise (fallback : Fallback) (orEmpty : Bool) (word : List Part)
  /-- The value without what a pattern covers at one of its ends. -/
  | trimmed (atEnd longest : Bool) (pattern : List Part)
  | senseless

inductive Command where
  | nothing
  | simple (line : Nat) (assignments : List (String × List Part)) (words : List (List Part))
      (redirections : List (Nat × Direction × List Part))
  | sequence (first second : Command)
  | both (first second : Command)
  | either (first second : Command)
  | negation (command : Command)
  | pipeline (stages : List Command)
  | background (command : Command)
  | choice (condition yes no : Command)
  | loop (expected : Bool) (condition body : Command)
  | each (line : Nat) (name : String) (words : List (List Part)) (body : Command)
  | selection (line : Nat) (subject : List Part)
      (cases : List (List (List Part) × Command))
  | subshell (command : Command)
  | redirected (line : Nat) (command : Command)
      (redirections : List (Nat × Direction × List Part))
  | definition (name : String) (body : Command)

end

abbrev Word := List Part

inductive Token where
  | finish
  | newline
  | operator (text : String)
  | keyword (text : String)
  | redirection (descriptor : Nat) (direction : Direction)
  | word (parts : Word)

def Token.shown : Token → String
  | finish => "end of file"
  | newline => "newline"
  | operator text | keyword text => "\"" ++ text ++ "\""
  | redirection .. => "redirection"
  | word _ => "word"

def keywords : List String :=
  ["!", "case", "do", "done", "elif", "else", "esac", "fi", "for", "if", "in", "then", "until",
    "while", "\x7b", "\x7d"]

/-- Commands of a shell's own that change the shell itself. A fault in one of them ends the
script. -/
def specialNames : List String :=
  [".", ":", "break", "continue", "eval", "exec", "exit", "export", "local", "readonly", "return",
    "set", "shift", "times", "trap", "unset"]

def endsList : Token → Bool
  | .finish => true
  | .operator text => [")", ";;"].contains text
  | .keyword text =>
      ["do", "done", "elif", "else", "esac", "fi", "then", "\x7d"].contains text
  | _ => false

def plainText? : Word → Option (List Char)
  | [] => some []
  | .literal content false :: parts => (plainText? parts).map (content ++ ·)
  | _ => none

def isNameStart (c : Char) : Bool :=
  c.isAlpha || c == '_'

def isNamePart (c : Char) : Bool :=
  c.isAlphanum || c == '_'

def isName (text : List Char) : Bool :=
  match text with
  | [] => false
  | c :: rest => isNameStart c && rest.all isNamePart

def isSpecial (c : Char) : Bool :=
  "#@*?$!-0123456789".toList.contains c

def isOperator (c : Char) : Bool :=
  " \t\n;&|<>()".toList.contains c

def splitAssignment : Word → Option (List Char × Word)
  | .literal content false :: parts =>
      match content.dropWhile (· != '=') with
      | _ :: rest => some (content.takeWhile (· != '='), .literal rest false :: parts)
      | [] => (splitAssignment parts).map fun (name, value) => (content ++ name, value)
  | _ => none

def assignment? (word : Word) : Option (String × Word) :=
  match splitAssignment word with
  | some (name, value) => if isName name then some (String.ofList name, value) else none
  | none => none

end Stubwright.Shell
