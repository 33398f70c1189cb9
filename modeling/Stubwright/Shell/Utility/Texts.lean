import Stubwright.Shell.Condition
import Stubwright.Shell.Printing
import Stubwright.Shell.Utility.Basic

namespace Stubwright.Shell.Utility

open Disk Text

def contentOf (path : Value) : Running (Except Disk.Fault (List UInt8)) := do
  if path = ['-'] then pure (.ok ((← readAll 0).getD []))
  else
    match descriptorAt? (Octets.toText path) with
    | none => pure ((← get).world.readFile (Octets.toText path))
    | some descriptor =>
        match ← readAll descriptor with
        | some content => pure (.ok content)
        | none => pure (.error (.system .notFound))

def leadsTo (descriptor : Nat) (path : Value) : Running Bool := do
  let machine ← get
  let channel := (machine.process.descriptors.lookup descriptor).bind (machine.channels[·]?)
  match channel, machine.world.locate (Octets.toText path) with
  | some (.file place ..), .ok spot => pure (path != ['-'] && place = spot.place)
  | _, _ => pure false

def leadsToFile (descriptor : Nat) : Running Bool := do
  let machine ← get
  match (machine.process.descriptors.lookup descriptor).bind (machine.channels[·]?) with
  | some (.file ..) => pure true
  | _ => pure false

def piecesUpTo (stop : Char) (content : List UInt8) : List (List UInt8) :=
  let pieces := cut stop (Octets.ofBytes content)
  let ended := pieces.dropLast.map fun line => Octets.toBytes (line ++ [stop])
  let last := pieces.getLastD []
  if last.isEmpty then ended else ended ++ [Octets.toBytes last]

def linesOf (content : List UInt8) : List (List UInt8) :=
  piecesUpTo '\n' content

structure Display where
  numbersLines : Bool
  numbersFullLines : Bool
  showsEnds : Bool
  showsTabs : Bool
  showsHidden : Bool
  squeezes : Bool

def Display.ofRequest (request : Request) : Display :=
  ⟨request.has 'n', request.has 'b', request.hasAny "AeE", request.hasAny "AtT",
    request.hasAny "Aetv", request.has 's'⟩

def Display.character (display : Display) (c : Char) : Value :=
  let low (code : Nat) : Value :=
    if code < 32 then ['^', Char.ofNat (code + 64)]
    else if code = 127 then ['^', '?']
    else [Char.ofNat code]
  if c = '\t' then (if display.showsTabs then ['^', 'I'] else [c])
  else if !display.showsHidden then [c]
  else if c.toNat < 128 then low c.toNat
  else 'M' :: '-' :: low (c.toNat - 128)

/-- Lines as they are shown, with their ends. `number` is that of the next line, and `isGap` if an
empty line came before. -/
def Display.lines (display : Display) : (number : Nat) → (isGap : Bool) → List Value → Value
  | _, _, [] => []
  | number, isGap, line :: others =>
      let isEnded := line.getLast? = some '\n'
      let text := if isEnded then line.dropLast else line
      if display.squeezes && isGap && text.isEmpty then display.lines number true others
      else
        let isNumbered :=
          if display.numbersFullLines then !text.isEmpty else display.numbersLines
        let digits := (toString number).toList
        let front :=
          if isNumbered then List.replicate (6 - digits.length) ' ' ++ digits ++ ['\t'] else []
        let stop := if !isEnded then [] else if display.showsEnds then ['$', '\n'] else ['\n']
        front ++ text.flatMap display.character ++ stop ++
          display.lines (if isNumbered then number + 1 else number) text.isEmpty others

def gather (program : Value) (isPlain : Bool) (path : Value) :
    Running (Except Unit (List UInt8)) := do
  match ← contentOf path with
  | .error fault =>
      complainOf program path fault
      pure (.error ())
  | .ok content =>
      if !content.isEmpty && (← leadsTo 1 path) then
        complain program (shownPath path ++ octets ": input file is output file")
        pure (.error ())
      else if isPlain then
        if ← writeBytes 1 content then pure (.ok []) else pure (.error ())
      else pure (.ok content)

def cat (program : Value) (arguments : List Value) : Running Nat :=
  let words := [("show-all", 'A'), ("number-nonblank", 'b'), ("show-ends", 'E'),
    ("number", 'n'), ("squeeze-blank", 's'), ("show-tabs", 'T'), ("show-nonprinting", 'v')]
  withRequest ⟨"AbeEnstTuv", "", words, false⟩ 1 program arguments fun request => do
    let paths := if request.operands.isEmpty then [['-']] else request.operands
    let results ← paths.mapM (gather program (request.options.all (·.1 = 'u')))
    let content := (results.filterMap (·.toOption)).flatten
    let lines := (linesOf content).map Octets.ofBytes
    let _ ← print 1 ((Display.ofRequest request).lines 1 false lines)
    pure (if results.all (·.toOption.isSome) then 0 else 1)

def echoOptions : (isOpen escapes : Bool) → List Value → Bool × Bool × List Value
  | isOpen, escapes, [] => (isOpen, escapes, [])
  | isOpen, escapes, argument :: others =>
      match argument with
      | '-' :: letter :: letters =>
          if (letter :: letters).all ['n', 'e', 'E'].contains then
            let isOpen := isOpen || (letter :: letters).contains 'n'
            let escapes := match ((letter :: letters).filter (· != 'n')).getLast? with
              | some c => c = 'e'
              | none => escapes
            echoOptions isOpen escapes others
          else (isOpen, escapes, argument :: others)
      | _ => (isOpen, escapes, argument :: others)

def echo (arguments : List Value) : Running Nat := do
  let (isOpen, escapes, arguments) := echoOptions false false arguments
  let text := if escapes then echoedFrom isOpen arguments
    else [' '].intercalate arguments ++ (if isOpen then [] else ['\n'])
  let _ ← print 1 text
  pure 0

def printf (program : Value) (arguments : List Value) : Running Nat := do
  match arguments with
  | [] =>
      misuse 1 program (octets "missing operand")
  | format :: arguments =>
      let printout := printed format arguments
      printout.complaints.forM (complain program)
      let _ ← print 1 printout.text
      pure (if printout.complaints.isEmpty then 0 else 1)

def test (program : Value) (isBracket : Bool) (arguments : List Value) : Running Nat := do
  if isBracket && (arguments.getLastD []).head? != some ']' then
    complain program (octets "missing ']'")
    pure 2
  else
    match holds (← get).world (if isBracket then arguments.dropLast else arguments) with
    | .ok result => pure (if result then 0 else 1)
    | .error complaint =>
        complain program complaint
        pure 2

def nameWithout (ending path : Value) : Value :=
  let path := withoutSlashes path
  let name := if path = ['/'] then path else lastName path
  if ending.isSuffixOf name && ending != name then name.take (name.length - ending.length)
  else name

def basename (program : Value) (arguments : List Value) : Running Nat :=
  let words := [("multiple", 'a'), ("suffix", 's'), ("zero", 'z')]
  withRequest ⟨"az", "s", words, true⟩ 1 program arguments fun request => do
    let isMany := request.hasAny "as"
    let stop := if request.has 'z' then '\x00' else '\n'
    match isMany, request.operands with
    | _, [] => misuse 1 program (octets "missing operand")
    | true, paths =>
        let ending := (request.value? 's').getD []
        let _ ← print 1 (paths.flatMap fun path => nameWithout ending path ++ [stop])
        pure 0
    | false, _ :: _ :: extra :: _ => misuse 1 program (octets "extra operand " ++ quoted extra)
    | false, path :: others =>
        let _ ← print 1 (nameWithout (others.headD []) path ++ [stop])
        pure 0

def dirname (program : Value) (arguments : List Value) : Running Nat :=
  withRequest ⟨"z", "", [("zero", 'z')], false⟩ 1 program arguments fun request => do
    let stop := if request.has 'z' then '\x00' else '\n'
    if request.operands.isEmpty then misuse 1 program (octets "missing operand")
    else
      for path in request.operands do
        let path := withoutSlashes path
        let front := path.take (path.length - ((cut '/' path).getLastD []).length)
        let _ ← print 1 ((if front.isEmpty then ['.'] else withoutSlashes front) ++ [stop])
      pure 0

def multipliers : List (String × Nat) :=
  [("", 1), ("b", 512), ("k", 1024), ("K", 1024), ("kB", 1000), ("KB", 1000), ("KiB", 1024),
    ("m", Nat.pow 1024 2), ("M", Nat.pow 1024 2), ("MB", Nat.pow 1000 2), ("MiB", Nat.pow 1024 2),
    ("G", Nat.pow 1024 3), ("GB", Nat.pow 1000 3), ("GiB", Nat.pow 1024 3)]

/-- The first or last ones of some pieces. A sign in front of their number counts it from the other
side: up to the last ones, or from one of the first ones on. -/
def shownPieces (isFront : Bool) (count : Value) : Option (List α → List α) :=
  let (sign, rest) := match count with
    | '-' :: rest => ('-', rest)
    | '+' :: rest => ('+', rest)
    | rest => (' ', rest)
  let digits := rest.takeWhile Char.isDigit
  let factor? := multipliers.lookup (String.ofList (rest.drop digits.length))
  match digits.isEmpty, factor? with
  | false, some factor =>
      let number := (String.ofList digits).toNat?.getD 0 * factor
      some fun pieces =>
        if isFront then pieces.take (if sign = '-' then pieces.length - number else number)
        else pieces.drop (if sign = '+' then number - 1 else pieces.length - number)
  | _, _ => none

/-- A count right behind a sign asks for as many lines. A plus sign does so only if the last ones
are asked for. -/
def withCountOption (isFront : Bool) (arguments : List Value) : List Value :=
  match arguments with
  | (sign :: c :: count) :: others =>
      if sign = '-' && c.isDigit then ['-', 'n'] :: (c :: count) :: others
      else if sign = '+' && c.isDigit && !isFront then
        ['-', 'n'] :: (sign :: c :: count) :: others
      else arguments
  | _ => arguments

def excerpts (program : Value) (isHeaded : Bool) (part : List UInt8 → List UInt8) :
    (isLater : Bool) → List Value → Running Bool
  | _, [] => pure true
  | isLater, path :: others => do
      let name := if path = ['-'] then octets "standard input" else path
      let gap := if isLater then ['\n'] else []
      let heading := if isHeaded then gap ++ octets "==> " ++ name ++ octets " <==\n" else []
      match ← contentOf path with
      | .ok content =>
          let isDone ← writeBytes 1 (Octets.toBytes heading ++ part content)
          let areDone ← excerpts program isHeaded part true others
          pure (isDone && areDone)
      | .error (.system .isDirectory) =>
          let _ ← print 1 heading
          complainAt program "error reading " path (.system .isDirectory)
          let _ ← excerpts program isHeaded part true others
          pure false
      | .error fault =>
          complain program (octets "cannot open " ++ quoted path ++ octets " for reading: " ++
            reason fault)
          let _ ← excerpts program isHeaded part isLater others
          pure false

def excerpt (isFront : Bool) (program : Value) (arguments : List Value) : Running Nat :=
  let words := [("lines", 'n'), ("bytes", 'c'), ("quiet", 'q'), ("silent", 'q'),
    ("verbose", 'v'), ("zero-terminated", 'z')]
  let arguments := withCountOption isFront arguments
  withRequest ⟨"qvz", "nc", words, false⟩ 1 program arguments fun request => do
    let countsOctets := request.last? "nc" = some 'c'
    let count := ((request.last? "nc").bind request.value?).getD ['1', '0']
    let stop := if request.has 'z' then '\x00' else '\n'
    let ofOctets : Option (List UInt8 → List UInt8) := shownPieces isFront count
    let ofLines : Option (List (List UInt8) → List (List UInt8)) := shownPieces isFront count
    match ofOctets, ofLines with
    | some ofOctets, some ofLines =>
        let files := if request.operands.isEmpty then [['-']] else request.operands
        let isHeaded := match request.last? "qv" with
          | some c => c = 'v'
          | none => files.length > 1
        let part (content : List UInt8) : List UInt8 :=
          if countsOctets then ofOctets content else (ofLines (piecesUpTo stop content)).flatten
        let isDone ← excerpts program isHeaded part false files
        pure (if isDone then 0 else 1)
    | _, _ =>
        let unit := if countsOctets then "bytes" else "lines"
        complain program (octets ("invalid number of " ++ unit ++ ": ") ++ quoted count)
        pure 1

def wordCount (text : Value) : Nat :=
  (text.splitBy fun a b => isBlank a = isBlank b).countP fun run => run.any fun c => !isBlank c

def wc (program : Value) (arguments : List Value) : Running Nat :=
  let words := [("bytes", 'c'), ("chars", 'c'), ("lines", 'l'), ("words", 'w'),
    ("max-line-length", 'L')]
  withRequest ⟨"cLlmw", "", words, false⟩ 1 program arguments fun request => do
      let paths := request.operands
      let letters := if request.options.isEmpty then ['l', 'w', 'c']
        else request.options.map fun option => if option.1 = 'm' then 'c' else option.1
      let letters := letters.eraseDups
      let files := if paths.isEmpty then [['-']] else paths
      let contents ← files.mapM contentOf
      let isStream := paths.isEmpty && !(← leadsToFile 0)
      let countsOf (text : Value) : List Nat :=
        (if letters.contains 'l' then [text.count '\n'] else []) ++
          (if letters.contains 'w' then [wordCount text] else []) ++
          (if letters.contains 'c' then [text.length] else []) ++
          (if letters.contains 'L' then [((cut '\n' text).map (·.length)).foldl max 0] else [])
      let texts := contents.filterMap fun content => content.toOption.map Octets.ofBytes
      let faults := contents.filterMap fun content =>
        match content with
        | .error fault => some fault
        | .ok _ => none
      let width :=
        if letters.length = 1 && files.length = 1 then 1
        else if isStream || faults.contains (.system .isDirectory) then 7
        else (toString ((texts.map (·.length)).foldl (· + ·) 0)).length
      let shown (counts : List Nat) (name : Value) : Value :=
        let fields := counts.map fun count =>
          let digits := toString count
          octets (String.ofList (List.replicate (width - digits.length) ' ') ++ digits)
        [' '].intercalate fields ++ name ++ ['\n']
      for (path, content) in files.zip contents do
        match content with
        | .error fault =>
            complainOf program path fault
            if fault = .system .isDirectory then
              let _ ← print 1 (shown (countsOf []) (' ' :: path))
        | .ok content =>
            let name := if paths.isEmpty then [] else ' ' :: path
            let _ ← print 1 (shown (countsOf (Octets.ofBytes content)) name)
      if files.length > 1 then
        let add (a b : List Nat) := if a.isEmpty then b else a.zipWith (· + ·) b
        let total := (texts.map countsOf).foldl add []
        let _ ← print 1 (shown total (octets " total"))
      pure (if contents.all (·.toOption.isSome) then 0 else 1)

def tee (program : Value) (arguments : List Value) : Running Nat :=
  withRequest ⟨"aip", "", [("append", 'a'), ("ignore-interrupts", 'i')], false⟩ 1 program arguments
    fun request => do
      let content := (← readAll 0).getD []
      let _ ← writeBytes 1 content
      forEach request.operands fun path => do
        let text := Octets.toText path
        let world := (← get).world
        let old := if request.has 'a' then (world.readFile text).toOption.getD [] else []
        match descriptorAt? text with
        | some descriptor => writeBytes descriptor content
        | none =>
            match ← change (Disk.Change.writeFile text (old ++ content)) with
            | none => pure true
            | some fault =>
                complainOf program path fault
                pure false

def comesEarlier (isNumeric : Bool) (a b : Value) : Bool :=
  let number (line : Value) : Int :=
    let text := line.dropWhile isBlank
    match text with
    | '-' :: digits => -Decimal.digitsValue (digits.takeWhile Decimal.isDigit)
    | digits => Decimal.digitsValue (digits.takeWhile Decimal.isDigit)
  if isNumeric && number a != number b then number a < number b else (compare a b).isLE

def sort (program : Value) (arguments : List Value) : Running Nat :=
  let words := [("reverse", 'r'), ("unique", 'u'), ("numeric-sort", 'n'), ("output", 'o'),
    ("stable", 's')]
  withRequest ⟨"bcCdfghimMnrRsuVz", "oktST", words, false⟩ 2 program arguments fun request => do
    let paths := if request.operands.isEmpty then [['-']] else request.operands
    let contents ← paths.mapM contentOf
    let faults := (paths.zip contents).filterMap fun (path, content) =>
      match content with
      | .error fault => some (path, fault)
      | .ok _ => none
    match faults with
    | (path, fault) :: _ =>
        complain program (octets "cannot read: " ++ shownPath path ++ octets ": " ++ reason fault)
        pure 2
    | [] =>
        let lines := ((contents.filterMap (·.toOption)).flatMap linesOf).map fun line =>
          (Octets.ofBytes line).filter (· != '\n')
        let sorted := lines.mergeSort (comesEarlier (request.has 'n'))
        let sorted := if request.has 'r' then sorted.reverse else sorted
        let sorted := if request.has 'u' then sorted.eraseReps else sorted
        let text := sorted.flatMap (· ++ ['\n'])
        match request.value? 'o' with
        | none =>
            let _ ← print 1 text
            pure 0
        | some path =>
            match ← change (Disk.Change.writeFile (Octets.toText path) (Octets.toBytes text)) with
            | none => pure 0
            | some fault =>
                complain program
                  (octets "open failed: " ++ shownPath path ++ octets ": " ++ reason fault)
                pure 2

def isDuration (text : Value) : Bool :=
  let text := if "smhd".toList.contains (text.getLastD ' ') then text.dropLast else text
  let text := if text.head? = some '+' then text.drop 1 else text
  let front := text.takeWhile Decimal.isDigit
  let rest := text.drop front.length
  let fraction := if rest.head? = some '.' then rest.drop 1 else rest
  (rest.isEmpty || rest.head? = some '.') && fraction.all Decimal.isDigit &&
    !(front ++ fraction).isEmpty

/-- Time does not count here, but what is no time does. -/
def sleep (program : Value) (arguments : List Value) : Running Nat :=
  withRequest ⟨"", "", [], false⟩ 1 program arguments fun request => do
    let odd := request.operands.filter (!isDuration ·)
    match request.operands.isEmpty, odd.reverse with
    | true, _ => misuse 1 program (octets "missing operand")
    | false, [] => pure 0
    | false, last :: others =>
        for text in others.reverse do
          complain program (octets "invalid time interval " ++ quoted text)
        misuse 1 program (octets "invalid time interval " ++ quoted last)

def printenv (program : Value) (arguments : List Value) : Running Nat :=
  withRequest ⟨"0", "", [("null", '0')], true⟩ 2 program arguments fun request => do
    let world := (← get).world
    let stop := if request.has '0' then ['\x00'] else ['\n']
    if request.operands.isEmpty then
      let _ ← print 1 (world.environment.flatMap fun (name, value) =>
        octets (name ++ "=" ++ value) ++ stop)
      pure 0
    else
      let values := request.operands.map fun name => world.environmentValue? (Octets.toText name)
      let _ ← print 1 ((values.filterMap id).flatMap fun value => octets value ++ stop)
      pure (if values.all (·.isSome) then 0 else 1)

def pwd : Running Nat := do
  let place := (← get).world.workingDirectory
  let _ ← print 1 (octets (World.absolutePath place ++ "\n"))
  pure 0

end Stubwright.Shell.Utility
