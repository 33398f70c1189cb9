import Stubwright.Shell.Builtin.Variables

namespace Stubwright.Shell

open Disk Text

namespace Options

def table : List (String × Option Char) :=
  [("errexit", some 'e'), ("noglob", some 'f'), ("ignoreeof", some 'I'),
    ("interactive", some 'i'), ("monitor", some 'm'), ("noexec", some 'n'), ("stdin", some 's'),
    ("xtrace", some 'x'), ("verbose", some 'v'), ("vi", some 'V'), ("emacs", some 'E'),
    ("noclobber", some 'C'), ("allexport", some 'a'), ("notify", some 'b'),
    ("nounset", some 'u'), ("privileged", some 'p'), ("nolog", none), ("debug", none)]

def get (options : Options) : Char → Bool
  | 'e' => options.stopsAtFailure
  | 'f' => options.keepsPatterns
  | 'n' => options.runsNothing
  | 'x' => options.showsCommands
  | 'v' => options.showsLines
  | 'C' => options.keepsFiles
  | 'a' => options.exportsAll
  | 'u' => options.refusesUnset
  | _ => false

def put (options : Options) (isOn : Bool) : Char → Options
  | 'e' => { options with stopsAtFailure := isOn }
  | 'f' => { options with keepsPatterns := isOn }
  | 'n' => { options with runsNothing := isOn }
  | 'x' => { options with showsCommands := isOn }
  | 'v' => { options with showsLines := isOn }
  | 'C' => { options with keepsFiles := isOn }
  | 'a' => { options with exportsAll := isOn }
  | 'u' => { options with refusesUnset := isOn }
  | _ => options

def described (options : Options) : Value :=
  octets "Current option settings\n" ++ table.flatMap fun (name, letter) =>
    let isOn := (letter.map options.get).getD false
    octets (name ++ String.ofList (List.replicate (16 - name.length) ' ') ++
      (if isOn then "on\n" else "off\n"))

def commands (options : Options) : Value :=
  table.flatMap fun (name, letter) =>
    let isOn := (letter.map options.get).getD false
    octets ((if isOn then "set -o " else "set +o ") ++ name ++ "\n")

end Options

def switch (isOn : Bool) (letter : Char) : Running Unit :=
  changeProcess fun process => { process with options := process.options.put isOn letter }

def switchNamed (isOn : Bool) (name : Option Value) : Running Unit := do
  let options := (← process).options
  match name with
  | none =>
      let _ ← say (if isOn then options.described else options.commands)
  | some name =>
      match Options.table.find? (octets ·.1 = name) with
      | some (_, letter) =>
          match letter with
          | some letter => switch isOn letter
          | none => pure ()
      | none => fail (octets "Illegal option -o " ++ name)

def switchAll (isOn : Bool) (known : List Char) : List Char → List Value → Running (List Value)
  | [], arguments => pure arguments
  | 'o' :: more, arguments => do
      switchNamed isOn arguments.head?
      switchAll isOn known more (arguments.drop 1)
  | letter :: more, arguments => do
      if known.contains letter then
        switch isOn letter
        switchAll isOn known more arguments
      else fail (octets "Illegal option -" ++ [letter])

def switches : List Char :=
  Options.table.filterMap (·.2)

/-- Goes through options that are switched, and gives the arguments behind them; nothing if those of
the script stay as they are. -/
def switchFrom : (steps : Nat) → List Value → Running (Option (List Value))
  | 0, _ => pure none
  | _ + 1, [] => pure none
  | steps + 1, argument :: others => do
      match argument with
      | ['-'] =>
          switch false 'x'
          switch false 'v'
          pure (if others.isEmpty then none else some others)
      | ['-', '-'] => pure (some others)
      | '-' :: more => switchFrom steps (← switchAll true switches more others)
      | '+' :: more => switchFrom steps (← switchAll false switches more others)
      | argument => pure (some (argument :: others))

def setOptions (arguments : List Value) : Running Nat := do
  if arguments.isEmpty then say (← listing "" (·.value.isSome))
  else
    match ← switchFrom (arguments.length + 1) arguments with
    | some arguments =>
        changeProcess fun process =>
          { process with arguments, optionIndex := 1, optionPlace := none }
        pure 0
    | none => pure 0

end Stubwright.Shell
