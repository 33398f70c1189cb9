import Stubwright.Shell.Process

namespace Stubwright.Shell

open Disk Text

def say (text : Value) : Running Nat := do
  if text.isEmpty then return 0
  if ← print 1 text then pure 0
  else
    warn (((← process).culprit.getD []) ++ octets ": I/O error")
    pure 1

def optionsOf (known valued : List Char) :
    (steps : Nat) → List Value → Running (List (Char × Value) × List Value)
  | 0, arguments => pure ([], arguments)
  | _ + 1, [] => pure ([], [])
  | steps + 1, argument :: others => do
      match argument with
      | ['-', '-'] => pure ([], others)
      | '-' :: letter :: more =>
          if valued.contains letter then
            match more, others with
            | [], [] =>
                fail (octets "No arg for -" ++ [letter] ++ octets " option")
            | [], value :: others =>
                let (options, others) ← optionsOf known valued steps others
                pure ((letter, value) :: options, others)
            | more, others =>
                let (options, others) ← optionsOf known valued steps others
                pure ((letter, more) :: options, others)
          else if known.contains letter then
            let next := if more.isEmpty then others else ('-' :: more) :: others
            let (options, others) ← optionsOf known valued steps next
            pure ((letter, []) :: options, others)
          else fail (octets "Illegal option -" ++ [letter])
      | argument => pure ([], argument :: others)

def letters (known : String) (arguments : List Value) :
    Running (List Char × List Value) := do
  let steps := (arguments.map (·.length + 1)).foldl (· + ·) 1
  let (options, others) ← optionsOf known.toList [] steps arguments
  pure (options.map (·.1), others)

def quoted : Value → Value
  | value =>
      let pieces := cut '\'' value
      ['\''] ++ (octets "'\"'\"'").intercalate pieces ++ ['\'']

end Stubwright.Shell
