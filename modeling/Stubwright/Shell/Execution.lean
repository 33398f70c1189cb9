import Stubwright.Shell.Builtin.Table
import Stubwright.Shell.Executable
import Stubwright.Shell.Redirecting

/-!
Running commands. The text of a script is read and run line by line; words are expanded, descriptors
redirected and values assigned before a command runs. Every step counts, and a script that takes too
many of them is cut off.
-/
namespace Stubwright.Shell

open Disk Text

def recorded (status : Nat) : Running Nat := do
  changeProcess fun process => { process with status }
  pure status

/-- A failure ends a script that has asked for it, unless the status is tested anyway. -/
def checked (isTested : Bool) (status : Nat) : Running Nat := do
  let status ← recorded status
  if status != 0 && !isTested && (← process).options.stopsAtFailure then
    throw (.exited (some status))
  pure status

def toEnd (act : Value → Running Nat) (running : Running Nat) : Running Nat := do
  let status ←
    match ← attempt running with
    | .ok status | .error (.returned status) => pure status
    | .error (.exited (some status)) => pure status
    | .error .failed => pure 2
    | .error (.killed signal) => throw (.killed signal)
    | .error .exhausted => throw .exhausted
    | .error _ => pure (← process).status
  match (← process).traps.lookup 0 with
  | none | some [] => pure (status % 256)
  | some action =>
      changeProcess fun process =>
        { process with status, traps := process.traps.filter (·.1 != 0), loops := 0 }
      match ← attempt (act action) with
      | .error (.exited (some status)) => pure (status % 256)
      | .error (.killed signal) => throw (.killed signal)
      | .error .exhausted => throw .exhausted
      | .error .failed => pure 2
      | _ => pure (status % 256)

def settled (ending : Except Ending Nat) : Running Nat := do
  match ending with
  | .ok status => pure status
  | .error (.killed signal) =>
      match Signal.epitaph signal with
      | some epitaph =>
          let _ ← print 2 (octets (epitaph ++ "\n"))
      | none => pure ()
      pure (128 + signal)
  | .error .exhausted => throw .exhausted
  | .error _ => pure 2

def inCopy (act : Value → Running Nat) (running : Running Nat) : Running Nat := do
  let copy : Running Nat := do
    changeProcess fun process =>
      { process with
        isSubshell := true
        traps := process.traps.filter (·.2.isEmpty)
        ended := []
        unreaped := [] }
    toEnd act running
  settled (← apart copy)

def attend (act : Value → Running Nat) : Running Unit := do
  let machine ← get
  if machine.process.isSubshell || machine.signals.isEmpty then pure ()
  else
    set { machine with signals := [] }
    for signal in machine.signals do
      match if signal = Signal.kill then none else machine.process.traps.lookup signal with
      | none => if !Signal.harmless.contains signal then throw (.killed signal)
      | some [] => pure ()
      | some action =>
          let status := (← process).status
          match ← attempt (act action) with
          | .ok _ =>
              let _ ← recorded status
          | .error (.exited none) => throw (.exited (some status))
          | .error ending => throw ending

structure Call where
  words : List Value
  skipsFunctions : Bool
  usesDefaultPath : Bool

/-- Drops `command` from the front of a command, unless it has something to tell about others. -/
def Call.drops : (steps : Nat) → Call → Call
  | 0, call => call
  | steps + 1, call =>
      match call.words with
      | name :: arguments =>
          let others := arguments.dropWhile (· = ['-', 'p'])
          let usesDefaultPath := call.usesDefaultPath || others.length < arguments.length
          if name != octets "command" then call
          else
            match others with
            | ['-', '-'] :: first :: others => drops steps ⟨first :: others, true, usesDefaultPath⟩
            | ('-' :: _ :: _) :: _ | [] => call
            | others => drops steps ⟨others, true, usesDefaultPath⟩
      | [] => call

def callOf (words : List Value) : Call :=
  Call.drops words.length ⟨words, false, false⟩

def commandFields (outputOf : Command → Running Value) :
    (front : List Value) → List Word → Running (List Value)
  | front, [] => pure front
  | front, word :: others => do
      let name := ((callOf front).words.headD [])
      match if takesAssignments (Octets.toText name) then assignment? word else none with
      | some (name, value) =>
          let text ← assignedText outputOf value
          commandFields outputOf (front ++ [octets name ++ '=' :: text]) others
      | none => commandFields outputOf (front ++ (← wordFields outputOf word)) others

def assignAll (outputOf : Command → Running Value) (exports : Bool) :
    List (String × Word) → Running (List Value)
  | [] => pure []
  | (name, word) :: others => do
      let value ← assignedText outputOf word
      assign name value
      if exports then
        changeProcess fun process =>
          match process.stored? name with
          | some entry => process.setVariable name { entry with isExported := true }
          | none => process
      pure ((octets name ++ '=' :: value) :: (← assignAll outputOf exports others))

def trace (channel : Option Nat) (words : List Value) : Running Unit := do
  let process ← process
  if process.options.showsCommands then
    match channel with
    | some channel =>
        let front := (process.value? "PS4").getD []
        let _ ← writeTo channel
          (Octets.toBytes (front ++ [' '].intercalate words ++ ['\n']))
    | none => pure ()

def startingFault (fault : Disk.Fault) : String × Nat :=
  match fault with
  | .system .notFound | .system .notDirectory => ("not found", 127)
  | .system .linkLoop => (SystemFault.description .linkLoop, 127)
  | .system .nameTooLong => (SystemFault.description .nameTooLong, 127)
  | .system fault => (fault.description, 126)
  | fault => (fault.message, 126)

def searchPathOf (usesDefaultPath : Bool) (process : Process) : String :=
  if usesDefaultPath then "/usr/local/sbin:/usr/local/bin:/usr/sbin:/usr/bin:/sbin:/bin"
  else Octets.toText ((process.value? "PATH").getD [])

/-- Tells what a command is; nothing is told about one that is not there unless `isVerbose`. -/
def describe (isVerbose usesDefaultPath : Bool) (name : Value) : Running Nat := do
  let machine ← get
  let text := Octets.toText name
  let tell (what : String) : Running Nat :=
    say (name ++ octets ((if isVerbose then what else "") ++ "\n"))
  if keywords.contains text then tell " is a shell keyword"
  else if (machine.process.functions.lookup text).isSome then tell " is a shell function"
  else if specialNames.contains text then tell " is a special shell builtin"
  else if isBuiltin text then tell " is a shell builtin"
  else
    let searchPath := searchPathOf usesDefaultPath machine.process
    let isThere (path : String) : Bool :=
      if text.toList.contains '/' then machine.world.pathExists path
      else machine.world.isExecutable path
    match (candidates searchPath text).find? isThere with
    | some path =>
        let what :=
          if machine.process.known.contains text then " is a tracked alias for " else " is "
        changeProcess (·.remember text)
        say ((if isVerbose then name ++ octets what else []) ++ octets (path ++ "\n"))
    | none =>
        if isVerbose then
          let _ ← print 1 (name ++ octets ": not found\n")
        pure 127

def describeAll (isVerbose usesDefaultPath : Bool) (names : List Value) : Running Nat := do
  let statuses ← names.mapM (describe isVerbose usesDefaultPath)
  pure ((statuses.find? (· != 0)).getD 0)

def tellCommands (arguments : List Value) : Running Nat := do
  let (options, names) ← letters "pvV" arguments
  if options.contains 'v' || options.contains 'V' then
    describeAll (options.getLast? != some 'v') (options.contains 'p') (names.take 1)
  else pure 0

def lookUp (names : List Value) : Running Nat := do
  let machine ← get
  let searchPath := searchPathOf false machine.process
  let (options, names) ← letters "r" names
  if !options.isEmpty then
    changeProcess fun process => { process with known := [] }
    return 0
  let statuses ← names.mapM fun name => do
    let text := Octets.toText name
    let isFunction := (machine.process.functions.lookup text).isSome
    let isKnown := name.contains '/' || isBuiltin text || isFunction ||
      (candidates searchPath text).any machine.world.isExecutable
    if isKnown then
      if !isBuiltin text then changeProcess (·.remember text)
      pure 0
    else
      warn (name ++ octets ": not found")
      pure 1
  pure (if statuses.all (· = 0) then 0 else 1)

/-- The file with commands that a name stands for. Without a slash it is looked for in `PATH`. -/
def libraryFile (name : Value) : Running Value := do
  let machine ← get
  if name.contains '/' then pure name
  else
    let paths := candidates (searchPathOf false machine.process) (Octets.toText name)
    match paths.find? machine.world.isFile with
    | some path => pure (octets path)
    | none => fail (name ++ octets ": not found")

def scriptText (path : Value) : Running Value := do
  match (← get).world.readFile (Octets.toText path) with
  | .ok content => pure (Octets.ofBytes (content.filter (· != 0)))
  | .error (.system .isDirectory) => pure []
  | .error (.system fault) =>
      fail (octets "cannot open " ++ path ++ octets (": " ++ openingFault true fault))
  | .error _ => fail (octets "cannot open " ++ path ++ octets ": No such file")

namespace Process

def firstVariables (environment : List (String × String)) (number : Nat) (directory : Value) :
    List (String × Variable) :=
  let inherited := environment.filter fun entry => isName entry.1.toList
  let fixed := [("IFS", " \t\n"), ("OPTIND", "1")]
  let standard := [("OPTIND", "1"), ("PS4", "+ "), ("PS2", "> "), ("PS1", "# "),
    ("PATH", "/usr/local/sbin:/usr/local/bin:/usr/sbin:/usr/bin:/sbin:/bin"), ("IFS", " \t\n")]
  let isInherited (name : String) : Bool :=
    (fixed.lookup name).isNone && (inherited.lookup name).isSome
  let standard := standard.map fun (name, value) =>
    let value := if isInherited name then (inherited.lookup name).getD value else value
    (name, (⟨some (octets value), isInherited name, false⟩ : Variable))
  let others := (inherited.filter fun entry => (standard.lookup entry.1).isNone).map
    fun (name, value) => (name, (⟨some (octets value), true, false⟩ : Variable))
  let parent : Variable := ⟨some (octets (toString (number - 1))), false, false⟩
  let others := if (others.lookup "PPID").isSome then others else others ++ [("PPID", parent)]
  standard ++ others.filter (·.1 != "PWD") ++ [("PWD", ⟨some directory, true, false⟩)]

def fresh (world : World) (number : Nat) (name : Value) (descriptors : List (Nat × Nat)) :
    Process :=
  let directory := octets (World.absolutePath world.workingDirectory)
  { name, number, descriptors, directory
    isSubshell := false
    arguments := []
    assigned := firstVariables world.environment number directory
    functions := []
    aliases := []
    known := []
    mask := 0o022
    options := .allOff
    traps := []
    line := 0
    lastLine := 0
    culprit := none
    status := 0
    outputStatus := 0
    loops := 0
    callDepth := 0
    hidden := []
    lastBackground := none
    ended := []
    unreaped := []
    optionIndex := 1
    optionPlace := none }

end Process

structure ShellLine where
  takesText : Bool
  takesInput : Bool
  others : List Value

def shellLine : (steps : Nat) → List Value → Running ShellLine
  | 0, arguments => pure ⟨false, false, arguments⟩
  | _ + 1, [] => pure ⟨false, false, []⟩
  | steps + 1, argument :: others => do
      match argument with
      | ['-'] | ['-', '-'] => pure ⟨false, false, others⟩
      | sign :: letters =>
          if sign = '-' || sign = '+' then
            let switched := letters.filter fun letter => letter != 'c' && letter != 'l'
            let line ← shellLine steps (← switchAll (sign = '-') switches switched others)
            pure { line with
              takesText := line.takesText || letters.contains 'c'
              takesInput := line.takesInput || letters.contains 's' }
          else pure ⟨false, false, argument :: others⟩
      | [] => pure ⟨false, false, argument :: others⟩

def shellText (words : List Value) : Running (Value × Value × List Value) := do
  let name := words.headD []
  let line ← shellLine (words.length + 1) (words.drop 1)
  if line.takesText then
    match line.others with
    | [] => fail (octets "-c requires an argument")
    | [text] => pure (text, name, [])
    | text :: name :: arguments => pure (text, name, arguments)
  else
    match line.takesInput, line.others with
    | false, path :: arguments => pure (← scriptText path, path, arguments)
    | _, arguments => pure (Octets.ofBytes ((← readAll 0).getD []), name, arguments)

def chosenCase (outputOf : Command → Running Value) (subject : Value) :
    List (List Word × Command) → Running (Option Command)
  | [] => pure none
  | (patterns, body) :: others => do
      if ← patterns.anyM fun word => do pure ((← wordPattern outputOf word).covers subject) then
        pure (some body)
      else chosenCase outputOf subject others

inductive Pass where
  | done
  /-- The command has asked for the next pass. -/
  | again
  | stop
deriving DecidableEq, Repr

def onePass (depth : Nat) (running : Running Nat) : Running (Nat × Pass) := do
  changeProcess fun process => { process with loops := depth + 1 }
  match ← attempt running with
  | .ok status => pure (status, .done)
  | .error (.broken levels) =>
      if levels > 1 then throw (.broken (levels - 1)) else pure (0, .stop)
  | .error (.continued levels) =>
      if levels > 1 then throw (.continued (levels - 1)) else pure (0, .again)
  | .error ending => throw ending

def deepestCall : Nat := 1000

def changedOptions : Utility.OptionTable :=
  ⟨"i0v", "uS", [("ignore-environment", 'i'), ("null", '0'), ("unset", 'u'), ("debug", 'v')], true⟩

def leadingBindings : List Value → List (String × String) × List Value
  | [] => ([], [])
  | word :: others =>
      if word.contains '=' then
        let name := word.takeWhile (· != '=')
        let (bindings, others) := leadingBindings others
        ((Octets.toText name, Octets.toText (word.drop (name.length + 1))) :: bindings, others)
      else ([], word :: others)

def withBinding (environment : List (String × String)) (binding : String × String) :
    List (String × String) :=
  if environment.any (·.1 = binding.1) then
    environment.map fun entry => if entry.1 = binding.1 then binding else entry
  else environment ++ [binding]

def changedEnvironment (environment : List (String × String)) (request : Utility.Request) :
    List (String × String) × List Value :=
  let isBare := request.operands.head? = some ['-']
  let operands := if isBare then request.operands.drop 1 else request.operands
  let unset := request.options.filterMap fun (letter, value) =>
    if letter = 'u' then some (Octets.toText value) else none
  let kept := if isBare || request.has 'i' then []
    else environment.filter fun entry => !unset.contains entry.1
  let (bindings, words) := leadingBindings operands
  (bindings.foldl withBinding kept, words)

mutual

def run : (steps : Nat) → (isTested : Bool) → Command → Running Nat
  | 0, _, _ => throw .exhausted
  | steps + 1, isTested, command => do
      let act := runText steps false
      attend act
      if (← process).options.runsNothing then return (← process).status
      let status ←
        match command with
        | .nothing => pure (← process).status
        | .simple line assignments words redirections =>
            checked isTested
              (← runSimple steps isTested line assignments words redirections)
        | .sequence first second =>
            let _ ← run steps isTested first
            run steps isTested second
        | .both first second =>
            let status ← run steps true first
            if status = 0 then run steps isTested second else pure status
        | .either first second =>
            let status ← run steps true first
            if status = 0 then pure status else run steps isTested second
        | .negation command =>
            let status ← run steps true command
            recorded (if status = 0 then 1 else 0)
        | .pipeline stages => checked isTested (← runStages steps isTested none stages)
        | .background command =>
            let channel ← openChannel .nothing
            modify fun machine => { machine with processes := machine.processes + 1 }
            let number := (← get).processes
            let status ← inCopy act do
              setDescriptor 0 (some channel)
              run steps false command
            changeProcess fun process =>
              { process with
                ended := (number, status) :: process.ended
                unreaped := number :: process.unreaped
                lastBackground := some number }
            recorded 0
        | .choice condition yes no =>
            let status ← run steps true condition
            if status = 0 then run steps isTested yes
            else
              match no with
              | .nothing => recorded 0
              | no => run steps isTested no
        | .loop expected condition body =>
            let depth := (← process).loops
            let status ← runLoop steps isTested expected condition body depth 0
            changeProcess fun process => { process with loops := depth }
            recorded status
        | .each line name words body =>
            changeProcess fun process => { process with line }
            let fields ← words.flatMapM (wordFields (commandOutput steps))
            let depth := (← process).loops
            let status ← runEach steps isTested name body depth 0 fields
            changeProcess fun process => { process with loops := depth }
            recorded status
        | .selection line subject cases =>
            changeProcess fun process => { process with line }
            let subject ← wordText (commandOutput steps) subject
            match ← chosenCase (commandOutput steps) subject cases with
            | none | some .nothing => recorded 0
            | some body => recorded (← run steps isTested body)
        | .subshell command =>
            checked isTested (← inCopy act (run steps isTested command))
        | .redirected line command redirections =>
            changeProcess fun process => { process with line }
            let redirections ← redirectionsOf (commandOutput steps) redirections
            match ← redirected redirections (run steps isTested command) with
            | some status => recorded status
            | none => checked isTested 2
        | .definition name body =>
            changeProcess fun process =>
              let others := process.functions.filter (·.1 != name)
              { process with functions := (name, body) :: others }
            recorded 0
      attend act
      pure status

def runStages : (steps : Nat) → (isTested : Bool) → (input : Option Nat) → List Command →
    Running Nat
  | 0, _, _, _ => throw .exhausted
  | _ + 1, _, _, [] => pure 0
  | steps + 1, isTested, input, command :: others => do
      let output ← openChannel (.stream #[] 0)
      let status ← inCopy (runText steps false) do
        match input with
        | some channel => setDescriptor 0 (some channel)
        | none => pure ()
        if !others.isEmpty then setDescriptor 1 (some output)
        run steps isTested command
      if others.isEmpty then pure status
      else runStages steps isTested (some output) others

/-- Runs a body as long as a condition ends with the expected success. `depth` loops are around
this one. -/
def runLoop : (steps : Nat) → (isTested expected : Bool) → (condition body : Command) →
    (depth status : Nat) → Running Nat
  | 0, _, _, _, _, _, _ => throw .exhausted
  | steps + 1, isTested, expected, condition, body, depth, status => do
      match ← onePass depth (run steps true condition) with
      | (_, .stop) => pure status
      | (_, .again) => runLoop steps isTested expected condition body depth status
      | (result, .done) =>
          if (result = 0) != expected then pure status
          else
            match ← onePass depth (run steps isTested body) with
            | (status, .stop) => pure status
            | (status, _) => runLoop steps isTested expected condition body depth status

def runEach : (steps : Nat) → (isTested : Bool) → (name : String) → (body : Command) →
    (depth status : Nat) → List Value → Running Nat
  | 0, _, _, _, _, _, _ => throw .exhausted
  | _ + 1, _, _, _, _, status, [] => pure status
  | steps + 1, isTested, name, body, depth, _, value :: others => do
      assign name value
      match ← onePass depth (run steps isTested body) with
      | (status, .stop) => pure status
      | (status, _) => runEach steps isTested name body depth status others

def runSimple : (steps : Nat) → (isTested : Bool) → (line : Nat) →
    (assignments : List (String × Word)) → (words : List Word) →
    (redirections : List (Nat × Direction × Word)) → Running Nat
  | 0, _, _, _, _, _ => throw .exhausted
  | steps + 1, isTested, line, assignments, words, redirections => do
      changeProcess fun process => { process with line, outputStatus := 0 }
      let outputOf := commandOutput steps
      let fields ← commandFields outputOf [] words
      let redirections ← redirectionsOf outputOf redirections
      let before ← process
      let call := callOf fields
      let name := Octets.toText (call.words.headD [])
      let isFunction := !call.skipsFunctions && (before.functions.lookup name).isSome
      let isSpecial := !call.skipsFunctions && !isFunction && specialNames.contains name
      let isExec := !isFunction && name = "exec"
      let keeps := fields.isEmpty || isSpecial
      let errors ← channelOf? 2
      let work : Running Nat := do
        let exports := !keeps || (isExec && call.words.length > 1)
        let shown ← assignAll outputOf exports assignments
        trace errors (shown ++ fields)
        runCall steps isTested isSpecial call
      let work := if keeps then work else
        let hidden := assignments.map fun (name, _) => (name, before.stored? name)
        putBack (fun _ after => after.revealed hidden) work
      if isExec && call.words.length ≤ 1 then
        match ← attempt (redirections.forM redirect) with
        | .ok () => work
        | .error ending => if isSpecial then throw ending else pure 2
      else
        match ← redirected redirections work with
        | some status => pure status
        | none =>
            let _ ← recorded 2
            if isSpecial then throw .failed
            pure 2

def runCall : (steps : Nat) → (isTested isSpecial : Bool) → Call → Running Nat
  | 0, _, _, _ => throw .exhausted
  | steps + 1, isTested, isSpecial, call => do
      match call.words with
      | [] => pure (← process).outputStatus
      | word :: arguments =>
          let name := Octets.toText word
          let functions := (← process).functions
          let function? := if call.skipsFunctions then none else functions.lookup name
          match function? with
          | some body => runFunction steps isTested body arguments
          | none =>
              if !isBuiltin name then
                match ← spawn steps call.usesDefaultPath call.words with
                | .ok status | .error status => pure status
              else
                let running : Running Nat :=
                  match builtin? name with
                  | some builtin => builtin arguments
                  | none =>
                      if name = "eval" then
                        runText steps isTested ([' '].intercalate arguments)
                      else if name = "." then runLibrary steps arguments
                      else if name = "exec" then replace steps call.usesDefaultPath arguments
                      else if name = "type" then describeAll true false arguments
                      else if name = "hash" then lookUp arguments
                      else tellCommands arguments
                let restore (before after : Process) := { after with culprit := before.culprit }
                let running := putBack restore do
                  changeProcess fun process => { process with culprit := some word }
                  running
                match ← attempt running with
                | .ok status => pure status
                | .error ending =>
                    if ending = .failed && !isSpecial then pure 2 else throw ending

def runFunction : (steps : Nat) → (isTested : Bool) → Command → List Value → Running Nat
  | 0, _, _, _ => throw .exhausted
  | steps + 1, isTested, body, arguments => do
      let back (before after : Process) : Process :=
        { after.revealed after.hidden with
          arguments := before.arguments
          loops := before.loops
          callDepth := before.callDepth
          hidden := before.hidden
          optionIndex := before.optionIndex
          optionPlace := before.optionPlace }
      if (← process).callDepth ≥ deepestCall then
        fail (octets s!"Maximum function recursion depth ({deepestCall}) reached")
      let result ← attempt <| putBack back do
        changeProcess fun process =>
          { process with
            arguments
            loops := 0
            callDepth := process.callDepth + 1
            hidden := []
            optionIndex := 1
            optionPlace := none }
        run steps isTested body
      match result with
      | .ok status | .error (.returned status) => pure status
      | .error ending => throw ending

def runText : (steps : Nat) → (isTested : Bool) → Value → Running Nat
  | 0, _, _ => throw .exhausted
  | steps + 1, isTested, text =>
      putBack (fun before after => { after with lastLine := before.lastLine })
        (runSource steps isTested (.ofText text) 0)

/-- Reads and runs what is left of a text. -/
def runSource : (steps : Nat) → (isTested : Bool) → Source → (status : Nat) → Running Nat
  | 0, _, _, _ => throw .exhausted
  | steps + 1, isTested, source, status => do
      let aliases := (← process).aliases
      match nextCommands.run { source with aliases } with
      | .error fault =>
          changeProcess fun process => { process with line := fault.line }
          fail (octets ("Syntax error: " ++ fault.message))
      | .ok (none, _) => pure status
      | .ok (some command, rest) =>
          let options := (← process).options
          if options.showsLines then
            let _ ← print 2 (source.text.take (source.text.length - rest.text.length))
          changeProcess fun process => { process with lastLine := rest.line }
          match command with
          | .nothing => runSource steps isTested rest status
          | command =>
              if options.runsNothing then runSource steps isTested rest status
              else
                let status ← run steps isTested command
                runSource steps isTested rest status

def runLibrary : (steps : Nat) → (arguments : List Value) → Running Nat
  | 0, _ => throw .exhausted
  | steps + 1, arguments => do
      let (_, arguments) ← letters "" arguments
      match arguments with
      | [] => pure 0
      | name :: _ =>
          let path ← libraryFile name
          let text ← scriptText path
          changeProcess fun process => { process with culprit := some path }
          match ← attempt (runText steps false text) with
          | .ok status | .error (.returned status) => pure status
          | .error ending => throw ending

/-- Goes on as another program. -/
def replace : (steps : Nat) → (usesDefaultPath : Bool) → (words : List Value) → Running Nat
  | 0, _, _ => throw .exhausted
  | steps + 1, usesDefaultPath, words => do
      if words.isEmpty then return 0
      match ← spawn steps usesDefaultPath words with
      | .ok status =>
          changeProcess fun process => { process with traps := [] }
          throw (.exited (some status))
      | .error status => throw (.exited (some status))

def spawn : (steps : Nat) → (usesDefaultPath : Bool) → (words : List Value) →
    Running (Except Nat Nat)
  | 0, _, _ => throw .exhausted
  | steps + 1, usesDefaultPath, words => do
      let machine ← get
      let name := words.headD []
      let paths := candidates (searchPathOf usesDefaultPath machine.process) (Octets.toText name)
      let fallback (content : List UInt8) := if isText content then some "/bin/sh" else none
      match firstInvocation machine.world fallback words false paths with
      | .error fault =>
          let (message, status) := startingFault fault
          warn (name ++ octets (": " ++ message))
          pure (.error status)
      | .ok invocation =>
          changeProcess (·.remember (Octets.toText name))
          let environment := machine.process.exported
          let child : Running Nat := do
            modify fun machine => { machine with world.environment := environment }
            launch steps invocation
          pure (.ok (← settled (← apart child)))

def launch : (steps : Nat) → Invocation → Running Nat
  | 0, _ => throw .exhausted
  | steps + 1, invocation => do
      modify fun machine =>
        let number := machine.processes + 1
        { machine with
          processes := number
          process := Process.fresh machine.world number (invocation.words.headD [])
            machine.process.descriptors }
      let program := invocation.words.headD []
      let arguments := invocation.words.drop 1
      match Utility.find? invocation.program with
      | some utility => utility program arguments
      | none =>
          if invocation.program = "env" then runChanged steps program arguments
          else
            toEnd (runText steps false) do
              let (text, name, arguments) ← shellText invocation.words
              changeProcess fun process => { process with name, arguments }
              runText steps false text

def runChanged : (steps : Nat) → (program : Value) → (arguments : List Value) → Running Nat
  | 0, _, _ => throw .exhausted
  | steps + 1, program, arguments => do
      match changedOptions.read arguments with
      | .error fault => Utility.misuse 125 program fault.message
      | .ok request =>
          let world := (← get).world
          let (environment, words) := changedEnvironment world.environment request
          let world := { world with environment }
          match words with
          | [] =>
              let stop := if request.has '0' then "\x00" else "\n"
              let _ ← print 1 (environment.flatMap fun (name, value) =>
                octets (name ++ "=" ++ value ++ stop))
              pure 0
          | name :: _ =>
              let searchPath := (world.environmentValue? "PATH").getD defaultPath
              match firstInvocation world (fun _ => some "/bin/sh") words false
                (candidates searchPath (Octets.toText name)) with
              | .ok invocation =>
                  modify fun machine => { machine with world }
                  launch steps invocation
              | .error fault =>
                  Utility.complainAt program "" name fault
                  pure (startingFault fault).2

def commandOutput : (steps : Nat) → Command → Running Value
  | 0, _ => throw .exhausted
  | steps + 1, command => do
      let channel ← openChannel (.stream #[] 0)
      let status ← inCopy (runText steps false) do
        setDescriptor 1 (some channel)
        run steps false command
      changeProcess fun process => { process with outputStatus := status }
      let machine ← get
      let content := ((machine.channels.getD channel .nothing).rest machine.world).getD []
      pure (Octets.ofBytes content)

end

end Stubwright.Shell
