import Stubwright.CommandLine.Arguments

/-!
Command lines as lists of words. Options may be mixed with the type name and the archive path; after
two dashes everything is one of these two. A value that has been named is taken in only when the
next word is understood, so a fault of the next word may hide its own.
-/
namespace Stubwright.CommandLine

/-- What the words of a command line give values to. -/
inductive Slot where
  | typeName | archivePath | output | classPath | catalog | config | logLevel
deriving DecidableEq, Repr

inductive Switch where
  | archive | withoutKit | help
deriving DecidableEq, Repr

inductive Named where
  | slot (slot : Slot)
  | switch (switch : Switch)
deriving DecidableEq, Repr

def longOptions : List (String × Named) :=
  [ ("archive", .switch .archive), ("no-jdk", .switch .withoutKit), ("help", .switch .help),
    ("output", .slot .output), ("classpath", .slot .classPath), ("catalog", .slot .catalog),
    ("config", .slot .config), ("log-level", .slot .logLevel) ]

structure Draft where
  typeName : Option String := none
  arguments : GenerateArguments := { typeName := "" }
  /-- How many words without a dash were met. -/
  positions : Nat := 0
  /-- A slot that was named last, and its value if that is known. -/
  pending : Option (Slot × Option String) := none
deriving DecidableEq, Repr

def pathValue (value : String) : Except UsageFault String :=
  if value.isEmpty then .error .badValue else .ok value

/-- The value of a slot that may be given once. -/
def once (old : Option String) (value : Except UsageFault String) :
    Except UsageFault (Option String) :=
  match old with
  | some _ => .error .conflict
  | none => value.map some

def store (draft : Draft) (slot : Slot) (value : String) : Except UsageFault Draft := do
  let arguments := draft.arguments
  match slot with
  | .typeName => pure { draft with typeName := some value }
  | .archivePath =>
      let archivePath ← once arguments.archivePath (pathValue value)
      pure { draft with arguments := { arguments with archivePath } }
  | .output =>
      let output ← once arguments.output (pathValue value)
      pure { draft with arguments := { arguments with output } }
  | .config =>
      let config ← once arguments.config (pathValue value)
      pure { draft with arguments := { arguments with config } }
  | .logLevel =>
      let logLevel ← once arguments.logLevel (.ok value)
      pure { draft with arguments := { arguments with logLevel } }
  | .classPath =>
      pure { draft with arguments.classPath := arguments.classPath ++ [value] }
  | .catalog =>
      let catalog ← pathValue value
      pure { draft with arguments.catalogs := arguments.catalogs ++ [catalog] }

def settle (draft : Draft) : Except UsageFault Draft :=
  match draft.pending with
  | none => .ok draft
  | some (_, none) => .error .badValue
  | some (slot, some value) => store { draft with pending := none } slot value

def turnOn (draft : Draft) (switch : Switch) : Except UsageFault Draft := do
  let draft ← settle draft
  match switch with
  | .help => throw .help
  | .archive =>
      if draft.arguments.archive then throw .conflict
      pure { draft with arguments.archive := true }
  | .withoutKit =>
      if draft.arguments.withoutKit then throw .conflict
      pure { draft with arguments.withoutKit := true }

def name (draft : Draft) (slot : Slot) (attached : Option String) : Except UsageFault Draft := do
  let draft ← settle draft
  match attached with
  | some value => store draft slot value
  | none => pure { draft with pending := some (slot, none) }

def position (draft : Draft) (word : String) : Except UsageFault Draft := do
  let place (slot : Slot) : Except UsageFault Draft := do
    let draft ← settle draft
    pure { draft with positions := draft.positions + 1, pending := some (slot, some word) }
  match draft.positions with
  | 0 => place .typeName
  | 1 => place .archivePath
  | _ => throw .unknownArgument

def longOption (draft : Draft) (text : List Char) : Except UsageFault Draft :=
  let optionName := String.ofList (text.takeWhile (· != '='))
  let attached := match text.dropWhile (· != '=') with
    | [] => none
    | _ :: value => some (String.ofList value)
  match longOptions.lookup optionName, attached with
  | none, _ => .error .unknownArgument
  | some (.switch _), some _ => .error .surplusValue
  | some (.switch switch), none => turnOn draft switch
  | some (.slot slot), attached => name draft slot attached

/-- Letters behind one dash; a value may follow its letter at once. -/
def shortOptions (draft : Draft) : List Char → Except UsageFault Draft
  | 'h' :: _ => turnOn draft .help
  | 'o' :: [] => name draft .output none
  | 'o' :: '=' :: value => name draft .output (some (String.ofList value))
  | 'o' :: value => name draft .output (some (String.ofList value))
  | _ => .error .unknownArgument

def option (draft : Draft) (word : String) : Except UsageFault Draft :=
  match word.toList with
  | '-' :: '-' :: text => longOption draft text
  | '-' :: c :: rest => shortOptions draft (c :: rest)
  | _ =>
      match draft.pending with
      | some (slot, none) => .ok { draft with pending := some (slot, some word) }
      | _ => position draft word

def words (draft : Draft) : (isOver : Bool) → List String → Except UsageFault Draft
  | _, [] => .ok draft
  | true, word :: others => do words (← position draft word) true others
  | false, word :: others =>
      if word = "--" then words draft true others
      else do words (← option draft word) false others

def finish (draft : Draft) : Except UsageFault GenerateArguments := do
  let draft ← settle draft
  if draft.arguments.archive && draft.arguments.output.isSome then throw .conflict
  match draft.typeName with
  | some typeName => pure { draft.arguments with typeName }
  | none => throw .missingArgument

def generateArguments (line : List String) : Except UsageFault GenerateArguments := do
  finish (← words {} false line)

def plainCommand : (isOver : Bool) → List String → Except UsageFault Unit
  | _, [] => .ok ()
  | true, _ :: _ => .error .unknownArgument
  | false, word :: others =>
      if word = "--" then plainCommand true others
      else
        match word.toList with
        | '-' :: '-' :: text =>
            if text = "help".toList then .error .help
            else if "help=".toList.isPrefixOf text then .error .surplusValue
            else .error .unknownArgument
        | '-' :: 'h' :: _ => .error .help
        | _ => .error .unknownArgument

def helpFor : List String → UsageFault
  | [] => .help
  | command :: others =>
      if ["generate", "version", "help"].contains command && others.isEmpty then .help
      else .unknownCommand

def programOption (word : String) : UsageFault :=
  match word.toList with
  | '-' :: '-' :: text =>
      match String.ofList (text.takeWhile (· != '=')), text.contains '=' with
      | "help", false => .help
      | "version", false => .programVersion
      | "help", true | "version", true => .surplusValue
      | _, _ => .unknownArgument
  | '-' :: 'h' :: _ => .help
  | '-' :: 'V' :: _ => .programVersion
  | '-' :: _ :: _ => .unknownArgument
  | _ => .unknownCommand

def strayWord (word : String) : UsageFault :=
  if ["generate", "version", "help"].contains word then .unknownArgument else .unknownCommand

def parse : List String → Except UsageFault Invocation
  | [] => .ok .nothing
  | "generate" :: line => (generateArguments line).map .generate
  | "version" :: line => (plainCommand false line).map fun _ => .version
  | "help" :: line => .error (helpFor line)
  | "--" :: [] => .ok .nothing
  | "--" :: word :: _ => .error (strayWord word)
  | word :: _ => .error (programOption word)

end Stubwright.CommandLine
