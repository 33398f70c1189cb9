import Stubwright.Shell.Builtin.Arguments

namespace Stubwright.Shell

open Disk Text

def listing (start : String) (isListed : Variable → Bool) : Running Value := do
  let entries := (← process).assigned.filter fun entry => isListed entry.2
  let sorted := entries.mergeSort fun a b => decide (a.1 ≤ b.1)
  pure (sorted.flatMap fun (name, entry) =>
    let value := match entry.value with
      | some value => '=' :: quoted value
      | none => []
    octets (start ++ name) ++ value ++ ['\n'])

def binding? (text : Value) : Option (String × Value) :=
  match text.dropWhile (· != '=') with
  | [] => none
  | _ :: value => some (Octets.toText (text.takeWhile (· != '=')), value)

def checkName (name : String) : Running Unit := do
  if !isName name.toList then
    fail (octets (String.ofList (name.toList.takeWhile (· != '=')) ++ ": bad variable name"))

def marking (name : String) (mark : Variable → Variable) (isMarked : Variable → Bool)
    (arguments : List Value) : Running Nat := do
  let (options, arguments) ← letters "p" arguments
  if !options.isEmpty || arguments.isEmpty then say (← listing (name ++ " ") isMarked)
  else
    for argument in arguments do
      let (target, value) := match binding? argument with
        | some (target, value) => (target, some value)
        | none => (Octets.toText argument, none)
      checkName target
      match value with
      | some value => assign target value
      | none => pure ()
      let entry := ((← process).stored? target).getD ⟨none, false, false⟩
      changeProcess fun process => process.setVariable target (mark entry)
    pure 0

def hide (name : String) : Running Unit := do
  let process ← process
  if process.hidden.any (·.1 = name) then pure ()
  else
    changeProcess fun process =>
      { process with hidden := (name, process.stored? name) :: process.hidden }

def Process.revealed (process : Process) (hidden : List (String × Option Variable)) : Process :=
  hidden.foldl (fun process (name, entry) =>
    match entry with
    | some entry => process.setVariable name entry
    | none => process.dropVariable name) process

def localVariables (arguments : List Value) : Running Nat := do
  if (← process).callDepth = 0 then fail (octets "not in a function")
  for argument in arguments do
    match binding? argument with
    | some (name, value) =>
        checkName name
        hide name
        assign name value
    | none =>
        let name := Octets.toText argument
        checkName name
        hide name
        let entry := ((← process).stored? name).getD ⟨none, false, false⟩
        changeProcess fun process => process.setVariable name entry
  pure 0

def unset (arguments : List Value) : Running Nat := do
  let (options, names) ← letters "fv" arguments
  let isFunction := options.getLast? = some 'f'
  for name in names do
    let name := Octets.toText (name.takeWhile (· != '='))
    if isFunction then
      changeProcess fun process =>
        { process with functions := process.functions.filter (·.1 != name) }
    else
      checkName name
      match (← process).stored? name with
      | some entry =>
          if entry.isReadOnly then fail (octets (name ++ ": is read only"))
          changeProcess fun process => process.dropVariable name
      | none => pure ()
  pure 0

end Stubwright.Shell
