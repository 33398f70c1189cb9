import Stubwright.Shell.Formula
import Stubwright.Shell.Pattern

namespace Stubwright.Shell

open Disk Text

inductive Item where
  | glyph (glyph : Glyph)
  /-- Quotes, which keep a field even if it is empty. -/
  | mark
  /-- The beginning of a value. -/
  | start
  /-- The end of a field, whatever the separators; like a blank it adds no empty field. -/
  | boundary

def quotedItems (content : Value) : List Item :=
  if content.isEmpty then [.mark] else content.map fun c => .glyph ⟨c, true, false⟩

def valueItems (isQuoted : Bool) (content : Value) : List Item :=
  if isQuoted then quotedItems content
  else .start :: content.map fun c => .glyph ⟨c, false, true⟩

def fieldItems (isQuoted : Bool) (contents : List Value) : List Item :=
  let items (content : Value) : List Item :=
    if isQuoted then quotedItems content else content.map fun c => .glyph ⟨c, false, true⟩
  .start :: [Item.boundary].intercalate (contents.map items)

namespace Process

def joint (process : Process) : Value :=
  match process.value? "IFS" with
  | some separators => separators.take 1
  | none => [' ']

def joinedArguments (process : Process) : Value :=
  (process.arguments.intersperse process.joint).flatten

def optionLetters (process : Process) : Value :=
  let options := process.options
  [('e', options.stopsAtFailure), ('f', options.keepsPatterns), ('n', options.runsNothing),
    ('x', options.showsCommands), ('v', options.showsLines), ('C', options.keepsFiles),
    ('a', options.exportsAll), ('u', options.refusesUnset)].filterMap
      fun (letter, isOn) => if isOn then some letter else none

def parameter? (process : Process) (name : String) : Option Value :=
  match name with
  | "0" => some process.name
  | "#" => some (octets (toString process.arguments.length))
  | "?" => some (octets (toString process.status))
  | "$" => some (octets (toString process.number))
  | "-" => some process.optionLetters
  | "!" => process.lastBackground.map fun number => octets (toString number)
  | "@" | "*" => if process.arguments.isEmpty then none else some process.joinedArguments
  | _ =>
      match name.toNat? with
      | some number => process.arguments[number - 1]?
      | none => process.value? name

end Process

def checkSet (name : String) (value : Option Value) : Running Unit := do
  if value.isNone && (← process).options.refusesUnset && name != "@" && name != "*" then
    fail (octets (name ++ ": parameter not set"))

/-- A word whose first part begins with a tilde stands for a home directory; so does every piece of
an assigned value. -/
def homeAt (process : Process) (content : List Char) (isLast : Bool) : Option Word :=
  match content with
  | '~' :: rest =>
      let user := rest.takeWhile (· != '/')
      let behind := rest.drop user.length
      let home :=
        if behind.isEmpty && !isLast then none
        else if user.isEmpty then process.value? "HOME"
        else if user = octets "root" then some (octets "/root")
        else none
      home.map fun home => [.literal home !home.isEmpty, .literal behind false]
  | _ => none

def withHome (process : Process) : Word → Word
  | .literal content false :: parts =>
      match homeAt process content parts.isEmpty with
      | some front => front ++ parts
      | none => .literal content false :: parts
  | parts => parts

def withHomes (process : Process) : (atPiece : Bool) → Word → Word
  | _, [] => []
  | atPiece, .literal content false :: parts =>
      let pieces := cut ':' content
      let front := pieces.zipIdx.flatMap fun (piece, index) =>
        let isLast := parts.isEmpty || index + 1 < pieces.length
        let found := if atPiece || index > 0 then homeAt process piece isLast else none
        (if index > 0 then [.literal [':'] false] else []) ++
          found.getD [.literal piece false]
      front ++ withHomes process (pieces.length > 1 && pieces.getLast? = some []) parts
  | _, part :: parts => part :: withHomes process false parts

structure Fields where
  finished : List (List Glyph)
  current : Option (List Glyph)
  /-- Blanks have just ended a field, so another separator adds nothing. -/
  isBlank : Bool

namespace Fields

def finish (fields : Fields) (isBlank : Bool) : Fields :=
  ⟨fields.finished ++ fields.current.toList, none, isBlank⟩

def add (separators : Value) (fields : Fields) : Item → Fields
  | .mark => { fields with current := some (fields.current.getD []), isBlank := false }
  | .start => { fields with isBlank := false }
  | .boundary => if fields.current.isSome then fields.finish true else fields
  | .glyph glyph =>
      if !glyph.isSplit || !separators.contains glyph.char then
        { fields with current := some (fields.current.getD [] ++ [glyph]), isBlank := false }
      else if [' ', '\t', '\n'].contains glyph.char then
        if fields.current.isSome then fields.finish true else fields
      else if fields.current.isNone && fields.isBlank then { fields with isBlank := false }
      else { fields with current := some (fields.current.getD []) }.finish false

end Fields

def splitFields (separators : Value) (items : List Item) : List (List Glyph) :=
  ((items.foldl (Fields.add separators) ⟨[], none, false⟩).finish false).finished

def joinItems (process : Process) (items : List Item) : List Glyph :=
  items.flatMap fun item =>
    match item with
    | .glyph glyph => [glyph]
    | .mark | .start => []
    | .boundary => process.joint.map fun c => ⟨c, true, false⟩

def textOf (glyphs : List Glyph) : Value :=
  glyphs.map (·.char)

def trimmedOutput (output : Value) : Value :=
  ((output.filter (· != '\x00')).reverse.dropWhile (· = '\n')).reverse

def deepest : Nat := 1000

section

-- Words ask for what a command prints.
variable (outputOf : Command → Running Value)

mutual

/-- The items of a word. Text that is not quoted may be split inside a value only. `isList` if the
word may give several fields. -/
def wordItems : (depth : Nat) → (isList splits : Bool) → Word → Running (List Item)
  | 0, _, _, _ => pure []
  | depth + 1, isList, splits, word =>
      word.flatMapM fun part => partItems depth isList splits part

def partItems : (depth : Nat) → (isList splits : Bool) → Part → Running (List Item)
  | 0, _, _, _ => pure []
  | depth + 1, isList, splits, part => do
      match part with
      | .literal content true => pure (quotedItems content)
      | .literal content false => pure (content.map fun c => .glyph ⟨c, false, splits⟩)
      | .output command isQuoted =>
          let value := trimmedOutput (← outputOf command)
          pure (if isQuoted && value.isEmpty then [] else valueItems isQuoted value)
      | .formula expression isQuoted =>
          let items ← wordItems depth false false expression
          let text := textOf (joinItems (← process) items)
          pure (valueItems isQuoted (octets (toString (← formulaValue text))))
      | .parameter name use isQuoted => parameterItems depth isList name use isQuoted

def parameterItems : (depth : Nat) → (isList : Bool) → String → Use → (isQuoted : Bool) →
    Running (List Item)
  | 0, _, _, _, _ => pure []
  | depth + 1, isList, name, use, isQuoted => do
      let value := (← process).parameter? name
      let shown : Running (List Item) := do
        let process ← process
        if name = "@" || (name = "*" && !isQuoted) then
          pure (fieldItems isQuoted process.arguments)
        else pure (valueItems isQuoted (value.getD []))
      match use with
      | .senseless => fail (octets "Bad substitution")
      | .value =>
          checkSet name value
          shown
      | .length =>
          checkSet name value
          pure (valueItems isQuoted (octets (toString (value.getD []).length)))
      | .trimmed atEnd longest pattern =>
          checkSet name value
          let hasValue := value.isSome || name = "@" || name = "*"
          let items ← if hasValue then wordItems depth false false pattern else pure []
          let pattern := patternOf (joinItems (← process) items)
          if isList && (name = "@" || (name = "*" && !isQuoted)) then
            let all := ['\x00'].intercalate (← process).arguments
            pure (fieldItems isQuoted (cut '\x00' (pattern.trim atEnd longest all)))
          else pure (valueItems isQuoted (pattern.trim atEnd longest (value.getD [])))
      | .otherwise fallback orEmpty word =>
          let isThere := match value with
            | some value => !(orEmpty && value.isEmpty)
            | none => false
          let other (isList : Bool) : Running (List Item) := do
            let withHome := withHome (← process) word
            let word := if isQuoted then word else withHome
            let items ← wordItems depth isList (!isQuoted) word
            pure (if isQuoted then .mark :: items else items)
          match fallback with
          | .replace => if isThere then other isList else pure (if isQuoted then [.mark] else [])
          | .use => if isThere then shown else other isList
          | .assign =>
              if isThere then shown
              else
                if !isName name.toList then fail (octets (name ++ ": bad variable name"))
                let value := textOf (joinItems (← process) (← other false))
                assign name value
                pure (valueItems isQuoted value)
          | .complain =>
              if isThere then shown
              else
                let message := textOf (joinItems (← process) (← other false))
                let standard := "parameter not set" ++ (if orEmpty then " or null" else "")
                fail (octets (name ++ ": ") ++
                  (if word.isEmpty then octets standard else message))

end

def wordText (word : Word) : Running Value := do
  let items ← wordItems outputOf deepest false false (withHome (← process) word)
  pure (textOf (joinItems (← process) items))

def assignedText (word : Word) : Running Value := do
  let items ← wordItems outputOf deepest false false (withHomes (← process) true word)
  pure (textOf (joinItems (← process) items))

def wordPattern (word : Word) : Running Pattern := do
  let items ← wordItems outputOf deepest false false (withHome (← process) word)
  pure (patternOf (joinItems (← process) items))

end

def isPattern (glyphs : List Glyph) : Bool :=
  glyphs.any fun glyph => !glyph.isQuoted && ['*', '?', '['].contains glyph.char

def pathPieces : List Glyph → List (List Glyph)
  | [] => [[]]
  | glyph :: rest =>
      match pathPieces rest with
      | [] => [[glyph]]
      | piece :: pieces =>
          if glyph.char = '/' then [] :: piece :: pieces else (glyph :: piece) :: pieces

def nameExists (world : World) (path : Value) : Bool :=
  let text := Octets.toText path
  if path.getLast? = some '/' then world.isDirectory text
  else
    match world.locateEntry text with
    | .ok spot => spot.node.isSome || spot.place.isEmpty
    | .error _ => false

def pathsFrom (world : World) : (front : Value) → List (List Glyph) → List Value
  | front, [] => [front]
  | front, [last] =>
      if isPattern last then namesFor front last
      else
        let path := front ++ textOf last
        if nameExists world path then [path] else []
  | front, piece :: pieces =>
      if isPattern piece then
        (namesFor front piece).flatMap fun path => pathsFrom world (path ++ ['/']) pieces
      else pathsFrom world (front ++ textOf piece ++ ['/']) pieces
where
  namesFor (front : Value) (piece : List Glyph) : List Value :=
    let directory := if front.isEmpty then "." else Octets.toText front
    let pattern := patternOf piece
    let showsHidden := piece.head?.map (·.char) = some '.'
    let names := (world.entryNames directory).toOption.getD []
    let names := if world.isDirectory directory then [".", ".."] ++ names else names
    (names.map octets).filterMap fun name =>
      if (name.head? != some '.' || showsHidden) && pattern.covers name then some (front ++ name)
      else none

/-- The names that a field stands for: those of the files that it covers, if there are any. -/
def namesOf (process : Process) (world : World) (field : List Glyph) : List Value :=
  if process.options.keepsPatterns || !isPattern field then [textOf field]
  else
    let paths := pathsFrom world [] (pathPieces field)
    if paths.isEmpty then [textOf field]
    else paths.mergeSort fun a b => (compare (a.map Char.toNat) (b.map Char.toNat)).isLE

def wordFields (outputOf : Command → Running Value) (word : Word) : Running (List Value) := do
  let items ← wordItems outputOf deepest true false (withHome (← process) word)
  let process ← process
  let world := (← get).world
  pure ((splitFields process.separators items).flatMap (namesOf process world))

end Stubwright.Shell
