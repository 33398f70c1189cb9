import Stubwright.Shell.Formula

namespace Stubwright.Shell

open Disk Text

abbrev Verdict (α : Type) := StateT (List Value) (Except Value) α

def unaryOperators : List String :=
  ["-r", "-w", "-x", "-e", "-f", "-d", "-c", "-b", "-p", "-u", "-g", "-k", "-s", "-t", "-z", "-n",
    "-h", "-O", "-G", "-L", "-S"]

def binaryOperators : List String :=
  ["=", "!=", "<", ">", "-eq", "-ne", "-ge", "-gt", "-le", "-lt", "-nt", "-ot", "-ef"]

def isOneOf (operators : List String) (word : Value) : Bool :=
  (operators.map octets).contains word

def isLink (world : World) (path : String) : Bool :=
  match world.locateEntry path with
  | .ok ⟨_, some (.link _)⟩ => true
  | _ => false

def isDevice (world : World) (path : String) : Bool :=
  match world.nodeAt? path with
  | some (.device _) => true
  | _ => false

def numberOperand (operand : Value) : Except Value Int :=
  match wholeNumber? operand with
  | some number => .ok number
  | none => .error (octets "Illegal number: " ++ operand)

def unaryHolds (world : World) (operator : String) (operand : Value) : Except Value Bool :=
  let path := Octets.toText operand
  match operator with
  | "-z" => .ok operand.isEmpty
  | "-n" => .ok !operand.isEmpty
  | "-e" | "-r" | "-w" | "-O" | "-G" => .ok (world.pathExists path)
  | "-f" => .ok (world.isFile path)
  | "-d" => .ok (world.isDirectory path)
  | "-x" => .ok (world.isDirectory path || world.isExecutable path)
  | "-s" =>
      match world.readFile path with
      | .ok content => .ok !content.isEmpty
      | .error _ => .ok (world.isDirectory path)
  | "-h" | "-L" => .ok (isLink world path)
  | "-c" => .ok (isDevice world path)
  | "-t" => (numberOperand operand).map fun _ => false
  | _ => .ok false

def binaryHolds (world : World) (operator : String) (a b : Value) : Except Value Bool := do
  let compare (holds : Int → Int → Bool) : Except Value Bool := do
    pure (holds (← numberOperand a) (← numberOperand b))
  match operator with
  | "=" => pure (a == b)
  | "!=" => pure (a != b)
  | "<" => pure (decide (a < b))
  | ">" => pure (decide (b < a))
  | "-eq" => compare fun a b => a = b
  | "-ne" => compare fun a b => a != b
  | "-ge" => compare fun a b => a ≥ b
  | "-gt" => compare fun a b => a > b
  | "-le" => compare fun a b => a ≤ b
  | "-lt" => compare fun a b => a < b
  | "-ef" =>
      match world.locate (Octets.toText a), world.locate (Octets.toText b) with
      | .ok ⟨a, some _⟩, .ok ⟨b, some _⟩ => pure (a == b)
      | _, _ => pure false
  | _ => pure false

/-- Whether the first word is an operator with one operand. It is none if it is itself compared with
what follows. -/
def startsUnary : List Value → Bool
  | operator :: operand :: others =>
      isOneOf unaryOperators operator && (others.isEmpty || !isOneOf binaryOperators operand)
  | _ => false

def next : Verdict Unit :=
  modify (·.drop 1)

mutual

def anyOf (world : World) : (steps : Nat) → Verdict Bool
  | 0 => pure false
  | steps + 1 => do
      let first ← allOf world steps
      match ← get with
      | ['-', 'o'] :: _ =>
          next
          pure ((← anyOf world steps) || first)
      | _ => pure first

def allOf (world : World) : (steps : Nat) → Verdict Bool
  | 0 => pure false
  | steps + 1 => do
      let first ← negated world steps
      match ← get with
      | ['-', 'a'] :: _ =>
          next
          pure ((← allOf world steps) && first)
      | _ => pure first

def negated (world : World) : (steps : Nat) → Verdict Bool
  | 0 => pure false
  | steps + 1 => do
      match ← get with
      | ['!'] :: _ =>
          next
          pure (!(← negated world steps))
      | _ => single world steps

def single (world : World) : (steps : Nat) → Verdict Bool
  | 0 => pure false
  | steps + 1 => do
      match ← get with
      | [] => pure false
      | ['('] :: first :: others =>
          next
          if first = [')'] then
            next
            pure false
          else
            set (first :: others)
            let result ← anyOf world steps
            match ← get with
            | [')'] :: _ =>
                next
                pure result
            | _ => throw (octets "closing paren expected")
      | first :: others =>
          if startsUnary (first :: others) then
            set (others.drop 1)
            unaryHolds world (Octets.toText first) (others.headD [])
          else
            match others with
            | operator :: behind =>
                if isOneOf binaryOperators operator then
                  match behind with
                  | [] => throw (operator ++ octets ": argument expected")
                  | operand :: rest =>
                      set rest
                      binaryHolds world (Octets.toText operator) first operand
                else
                  set others
                  pure (!first.isEmpty)
            | [] =>
                set others
                pure (!first.isEmpty)

end

/-- Whether the words of a condition hold. Three words with an operator between two others always
compare those. -/
def holds (world : World) : List Value → Except Value Bool
  | [] => .ok false
  | ['!'] :: words =>
      if words.length = 2 && isOneOf binaryOperators (words.headD []) then
        binaryHolds world (Octets.toText (words.headD [])) ['!'] (words.getLastD [])
      else if words.length = 2 || words.length = 3 then (holds world words).map (!·)
      else whole (['!'] :: words)
  | words =>
      match words with
      | [a, operator, b] =>
          if isOneOf binaryOperators operator then
            binaryHolds world (Octets.toText operator) a b
          else if a = ['('] && b = [')'] then whole [operator]
          else whole words
      | [a, b, c, d] => if a = ['('] && d = [')'] then whole [b, c] else whole words
      | _ => whole words
where
  whole (words : List Value) : Except Value Bool :=
    match (anyOf world (8 * words.length + 8)).run words with
    | .error complaint => .error complaint
    | .ok (result, []) => .ok result
    | .ok (_, rest) =>
        let word := words.getD (words.length - rest.length - 1) []
        .error (if word.isEmpty then octets "unexpected operator"
          else word ++ octets ": unexpected operator")

end Stubwright.Shell
