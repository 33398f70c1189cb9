import Stubwright.Shell.Words

namespace Stubwright.Shell

def unexpected (token : Token) : Reading α :=
  reject (token.shown ++ " unexpected")

def unexpectedFor (token : Token) (expected : String) : Reading α :=
  reject (token.shown ++ " unexpected (expecting \"" ++ expected ++ "\")")

def skipBlanks : (steps : Nat) → Reading Unit
  | 0 => pure ()
  | steps + 1 => do
      match ← peek with
      | some ' ' | some '\t' =>
          skip
          skipBlanks steps
      | some '#' =>
          let _ ← takeAll (· != '\n')
          skipBlanks steps
      | _ => pure ()

def redirectionHead : Reading Token := do
  if ← takeIf '>' then
    if ← takeIf '>' then pure (.redirection 1 .append)
    else if ← takeIf '&' then pure (.redirection 1 .copy)
    else pure (.redirection 1 (if ← takeIf '|' then .overwrite else .write))
  else
    skip
    if ← takeIf '<' then pure (.redirection 0 .document)
    else if ← takeIf '&' then pure (.redirection 0 .copy)
    else if ← takeIf '>' then pure (.redirection 0 .readWrite)
    else pure (.redirection 0 .read)

def redirection? : Reading (Option Token) := do
  let _ ← peek
  match (← get).text with
  | c :: d :: _ =>
      if c = '>' || c = '<' then return some (← redirectionHead)
      if c.isDigit && (d = '>' || d = '<') then
        skip
        match ← redirectionHead with
        | .redirection _ direction =>
            return some (.redirection (c.toNat - '0'.toNat) direction)
        | token => return some token
      return none
  | [c] => if c = '>' || c = '<' then return some (← redirectionHead) else return none
  | [] => return none

def operatorOf (c : Char) : Reading Token := do
  skip
  let isTwice ← if ['&', '|', ';'].contains c then takeIf c else pure false
  pure (.operator (if isTwice then String.ofList [c, c] else String.singleton c))

def delimiterWord : (steps : Nat) → Reading (List Char × Bool)
  | 0 => pure ([], false)
  | steps + 1 => do
      match ← peek with
      | none => pure ([], false)
      | some c =>
          if isOperator c then pure ([], false)
          else
            skip
            if c = '\'' || c = '"' then
              let content ← takeAll (· != c)
              if !(← takeIf c) then reject "Unterminated quoted string"
              pure (content ++ (← delimiterWord steps).1, true)
            else if c = '\\' then
              let content := (← take).toList
              pure (content ++ (← delimiterWord steps).1, true)
            else
              let (content, isQuoted) ← delimiterWord steps
              pure (c :: content, isQuoted)

/-- The lines up to the one that is a delimiter, how many lines that makes with it, and the text
behind. -/
def linesUpTo (delimiter : Delimiter) :
    (steps : Nat) → List Char → List Char × Nat × List Char
  | 0, rest => ([], 0, rest)
  | _ + 1, [] => ([], 0, [])
  | steps + 1, text =>
      let whole := text.takeWhile (· != '\n')
      let line := if delimiter.dropsTabs then whole.dropWhile (· = '\t') else whole
      let rest := text.drop (whole.length + 1)
      if line = delimiter.line then ([], 1, rest)
      else
        let (content, count, rest) := linesUpTo delimiter steps rest
        let ending := if whole.length < text.length then ['\n'] else []
        (line ++ ending ++ content, count + 1, rest)

/-- The text that belongs to a redirection, taken out of the lines behind the current one. `lineEnd`
tells how much text there is from the end of the line on. -/
def document (script : Reading Command) (lineEnd : Reading Nat) (steps : Nat) (dropsTabs : Bool) :
    Reading Word := do
  let (line, isQuoted) ← delimiterWord steps
  let delimiter : Delimiter := { line, dropsTabs }
  let left ← ahead lineEnd 0
  let source ← get
  let size := source.text.length - left
  let front := source.text.take size ++ (source.text.drop size).take 1
  let behind := source.text.drop (size + 1)
  let finish (count : Nat) (rest : List Char) (fault : Option SyntaxFault) : Reading Unit :=
    set { source with
      text := front ++ rest
      heldLines := source.heldLines + count
      heldBehind := rest.length
      heldFault := source.heldFault.or fault }
  if isQuoted then
    let (content, count, rest) := linesUpTo delimiter steps behind
    finish count rest none
    pure [.literal content true]
  else
    let start := source.line + (source.text.take size).count '\n' + source.heldLines + 1
    let inner := { Source.ofText behind with
      line := start, aliases := source.aliases, delimiter := some delimiter }
    let reading : Reading Word := do
      endAtDelimiter
      wordParts script steps .document
    match reading inner with
    | .error fault =>
        finish 0 behind (some fault)
        pure []
    | .ok (word, after) =>
        finish (after.line - start) after.behind none
        pure word

/-- Whether a list of commands ends with its line, may not be empty, or may be. -/
inductive ListKind where
  | line
  | body
  | anything
deriving DecidableEq, Repr

def pushBack (token : Token) : Reading Unit :=
  modify fun source => { source with pushed := some token }

def asKeyword (token : Token) : Token :=
  match token with
  | .word parts =>
      match plainText? parts with
      | some text =>
          let text := String.ofList text
          if keywords.contains text then .keyword text else token
      | none => token
  | _ => token

/-- Puts the text that a word stands for in front of what is still to be read. A name inside its own
text stands for itself. -/
def unfolds (word : Word) : Reading Bool := do
  let source ← get
  let name := ((plainText? word).map String.ofList).getD ""
  let behind := source.text.length
  if source.unfolding.any fun (other, rest) => other = name && rest ≤ behind then pure false
  else
    match source.aliases.lookup name with
    | some text =>
        set { source with
          text := text ++ source.text
          unfolding := (name, behind) :: source.unfolding
          lookup := if [some ' ', some '\t'].contains text.getLast? then some behind else none }
        pure true
    | none => pure false

def endsUnfolding : Reading Bool := fun source =>
  match source.lookup with
  | none => .ok (false, source)
  | some behind =>
      let left := source.text.take (source.text.length - behind)
      let isOver := source.text.length ≤ behind
      .ok (!isOver && left.all fun c => c = ' ' || c = '\t',
        if isOver then { source with lookup := none } else source)

mutual

def freshToken : (steps : Nat) → Reading Token
  | 0 => reject "script too long"
  | steps + 1 => do
      match (← get).pushed with
      | some token =>
          modify fun source => { source with pushed := none }
          pure token
      | none =>
          passHeld
          skipBlanks (← get).text.length.succ
          match ← peek with
          | none => pure .finish
          | some c =>
              if c = '\n' then
                skip
                pure .newline
              else if ['&', '|', ';', '(', ')'].contains c then operatorOf c
              else
                match ← redirection? with
                | some token => pure token
                | none =>
                    let script := commandList steps .anything
                    pure (.word (← wordParts script (8 * (← get).text.length + 8) .bare))

/-- The next token. Line ends are skipped and keywords are told apart if asked for. -/
def readToken : (steps : Nat) → (skipsLines knowsKeywords : Bool) → Reading Token
  | 0, _, _ => reject "script too long"
  | steps + 1, skipsLines, knowsKeywords => do
      match ← freshToken steps with
      | .newline =>
          if skipsLines then readToken steps skipsLines knowsKeywords else pure .newline
      | token =>
          if !knowsKeywords then pure token
          else
            match asKeyword token with
            | .word parts =>
                if ← unfolds parts then readToken steps skipsLines knowsKeywords
                else pure (.word parts)
            | token => pure token

def commandList : (steps : Nat) → ListKind → Reading Command
  | 0, _ => reject "script too long"
  | steps + 1, kind => do
      match ← readToken steps (kind != .line) true with
      | .newline => pure .nothing
      | token =>
          pushBack token
          match token with
          | .finish => pure .nothing
          | _ =>
              if kind = .anything && endsList token then pure .nothing
              else commandsFrom steps kind

def commandsFrom : (steps : Nat) → ListKind → Reading Command
  | 0, _ => reject "script too long"
  | steps + 1, kind => do
      let first ← chain steps
      let token ← readToken steps false false
      let more (first : Command) : Reading Command := do
        match ← commandList steps (if kind = .line then .line else .anything) with
        | .nothing => pure first
        | others => pure (.sequence first others)
      match token with
      | .operator "&" => more (.background first)
      | .operator ";" => more first
      | .newline =>
          if kind = .line then pure first else more first
      | .finish =>
          pushBack token
          pure first
      | token =>
          if kind = .line then unexpected token
          pushBack token
          pure first

def chain : (steps : Nat) → Reading Command
  | 0 => reject "script too long"
  | steps + 1 => do
      let first ← pipeline steps
      chainFrom steps first

def chainFrom : (steps : Nat) → Command → Reading Command
  | 0, _ => reject "script too long"
  | steps + 1, first => do
      match ← readToken steps false false with
      | .operator "&&" =>
          pushBack (← readToken steps true true)
          chainFrom steps (.both first (← pipeline steps))
      | .operator "||" =>
          pushBack (← readToken steps true true)
          chainFrom steps (.either first (← pipeline steps))
      | token =>
          pushBack token
          pure first

def pipeline : (steps : Nat) → Reading Command
  | 0 => reject "script too long"
  | steps + 1 => do
      match ← readToken steps false false with
      | .keyword "!" =>
          pushBack (← readToken steps false true)
          pure (.negation (← joined steps))
      | token =>
          pushBack token
          joined steps

def joined : (steps : Nat) → Reading Command
  | 0 => reject "script too long"
  | steps + 1 => do
      let first ← command steps
      match ← stages steps with
      | [] => pure first
      | others => pure (.pipeline (first :: others))

def stages : (steps : Nat) → Reading (List Command)
  | 0 => reject "script too long"
  | steps + 1 => do
      match ← readToken steps false false with
      | .operator "|" =>
          pushBack (← readToken steps true true)
          let first ← command steps
          pure (first :: (← stages steps))
      | token =>
          pushBack token
          pure []

def expectKeyword : (steps : Nat) → String → Reading Unit
  | 0, _ => reject "script too long"
  | steps + 1, keyword => do
      match ← readToken steps false false with
      | .keyword text =>
          if text != keyword then unexpectedFor (.keyword text) keyword
      | token => unexpectedFor token keyword

def choiceFrom : (steps : Nat) → Reading Command
  | 0 => reject "script too long"
  | steps + 1 => do
      let condition ← commandList steps .body
      expectKeyword steps "then"
      let yes ← commandList steps .body
      match ← readToken steps false false with
      | .keyword "elif" => pure (.choice condition yes (← choiceFrom steps))
      | .keyword "else" =>
          let no ← commandList steps .body
          expectKeyword steps "fi"
          pure (.choice condition yes no)
      | .keyword "fi" => pure (.choice condition yes .nothing)
      | token => unexpectedFor token "fi"

def wordsOfLine : (steps : Nat) → Reading (List Word × Token)
  | 0 => reject "script too long"
  | steps + 1 => do
      match ← readToken steps false false with
      | .word parts =>
          let (words, token) ← wordsOfLine steps
          pure (parts :: words, token)
      | token => pure ([], token)

def eachFrom : (steps : Nat) → (line : Nat) → Reading Command
  | 0, _ => reject "script too long"
  | steps + 1, line => do
      let name ←
        match ← readToken steps false false with
        | .word parts =>
            match plainText? parts with
            | some name => if isName name then pure name else reject "Bad for loop variable"
            | none => reject "Bad for loop variable"
        | _ => reject "Bad for loop variable"
      let words ←
        match ← readToken steps true true with
        | .keyword "in" =>
            let (words, token) ← wordsOfLine steps
            match token with
            | .newline | .operator ";" => pure words
            | token => unexpected token
        | .operator ";" => pure [[.parameter "@" .value true]]
        | token =>
            pushBack token
            pure [[.parameter "@" .value true]]
      pushBack (← readToken steps true true)
      expectKeyword steps "do"
      let body ← commandList steps .body
      expectKeyword steps "done"
      pure (.each line (String.ofList name) words body)

/-- The patterns of one case, up to the closing parenthesis; the first is read already. What is no
word at all counts as an empty one. -/
def patternsFrom : (steps : Nat) → Token → Reading (List Word)
  | 0, _ => reject "script too long"
  | steps + 1, first => do
      let word ←
        match first with
        | .word parts => pure parts
        | .keyword text => pure [.literal text.toList false]
        | _ => pure []
      match ← readToken steps false false with
      | .operator "|" => pure (word :: (← patternsFrom steps (← readToken steps false false)))
      | .operator ")" => pure [word]
      | token => unexpectedFor token ")"

def casesFrom : (steps : Nat) → Reading (List (List Word × Command))
  | 0 => reject "script too long"
  | steps + 1 => do
      match ← readToken steps true true with
      | .keyword "esac" => pure []
      | token =>
          let first ←
            match token with
            | .operator "(" => readToken steps false false
            | token => pure token
          let patterns ← patternsFrom steps first
          let body ← commandList steps .anything
          match ← readToken steps true true with
          | .operator ";;" => pure ((patterns, body) :: (← casesFrom steps))
          | .keyword "esac" => pure [(patterns, body)]
          | token => unexpectedFor token ";;"

def selectionFrom : (steps : Nat) → (line : Nat) → Reading Command
  | 0, _ => reject "script too long"
  | steps + 1, line => do
      let subject ←
        match ← readToken steps false false with
        | .word parts => pure parts
        | token => reject (token.shown ++ " unexpected (expecting word)")
      match ← readToken steps true true with
      | .keyword "in" => pure ()
      | token => unexpectedFor token "in"
      pure (.selection line subject (← casesFrom steps))

/-- How much text there is from the end of the current line on. A line end inside a word is none. -/
def lineEnd : (steps : Nat) → Reading Nat
  | 0 => pure 0
  | steps + 1 => do
      match ← freshToken steps with
      | .newline => pure ((← get).text.length + 1)
      | .finish => pure 0
      | _ => lineEnd steps

def redirectionFrom : (steps : Nat) → Nat → Direction →
    Reading (Nat × Direction × Word)
  | 0, _, _ => reject "script too long"
  | steps + 1, descriptor, direction => do
      if direction = .document then
        let dropsTabs ← takeIf '-'
        skipBlanks (← get).text.length.succ
        match ← redirection? with
        | some token => unexpected token
        | none => pure ()
        if ((← peek).map isOperator).getD true then unexpected (← readToken steps false false)
        let script := commandList steps .anything
        let fuel := 8 * (← get).text.length + 8
        let target ← document script (lineEnd steps) fuel dropsTabs
        pure (descriptor, direction, target)
      else
        match ← readToken steps false false with
        | .word parts => pure (descriptor, direction, parts)
        | token => unexpected token

def redirectionsFrom : (steps : Nat) → (knowsKeywords : Bool) →
    Reading (List (Nat × Direction × Word))
  | 0, _ => reject "script too long"
  | steps + 1, knowsKeywords => do
      match ← readToken steps false knowsKeywords with
      | .redirection descriptor direction =>
          let first ← redirectionFrom steps descriptor direction
          pure (first :: (← redirectionsFrom steps false))
      | token =>
          pushBack token
          pure []

def command : (steps : Nat) → Reading Command
  | 0 => reject "script too long"
  | steps + 1 => do
      let line := (← get).line
      let wrapped (command : Command) : Reading Command := do
        match ← redirectionsFrom steps true with
        | [] => pure command
        | redirections => pure (.redirected line command redirections)
      match ← readToken steps false true with
      | .keyword "if" => wrapped (← choiceFrom steps)
      | .keyword "while" =>
          let condition ← commandList steps .body
          expectKeyword steps "do"
          let body ← commandList steps .body
          expectKeyword steps "done"
          wrapped (.loop true condition body)
      | .keyword "until" =>
          let condition ← commandList steps .body
          expectKeyword steps "do"
          let body ← commandList steps .body
          expectKeyword steps "done"
          wrapped (.loop false condition body)
      | .keyword "for" => wrapped (← eachFrom steps line)
      | .keyword "case" => wrapped (← selectionFrom steps line)
      | .operator "(" =>
          let inner ← commandList steps .body
          match ← readToken steps false false with
          | .operator ")" => wrapped (.subshell inner)
          | token => unexpectedFor token ")"
      | .keyword "\x7b" =>
          let inner ← commandList steps .body
          expectKeyword steps "\x7d"
          wrapped inner
      | .word parts =>
          pushBack (.word parts)
          simpleFrom steps (← get).line [] [] []
      | .redirection descriptor direction =>
          pushBack (.redirection descriptor direction)
          simpleFrom steps (← get).line [] [] []
      | token => unexpected token

def simpleFrom : (steps : Nat) → (line : Nat) → List (String × Word) → List Word →
    List (Nat × Direction × Word) → Reading Command
  | 0, _, _, _, _ => reject "script too long"
  | steps + 1, line, assignments, words, redirections => do
      let isLookedUp := words.isEmpty || (← endsUnfolding)
      match ← readToken steps false false with
      | .word parts =>
          let unfolded ← if isLookedUp then unfolds parts else pure false
          match if words.isEmpty then assignment? parts else none with
          | some binding =>
              simpleFrom steps line (assignments ++ [binding]) words redirections
          | none =>
              let words := if unfolded then words else words ++ [parts]
              simpleFrom steps line assignments words redirections
      | .redirection descriptor direction =>
          let redirection ← redirectionFrom steps descriptor direction
          simpleFrom steps line assignments words (redirections ++ [redirection])
      | token =>
          match token, words, assignments, redirections with
          | .operator "(", [name], [], [] =>
              match ← readToken steps false false with
              | .operator ")" => pure ()
              | token => unexpectedFor token ")"
              match plainText? name with
              | some name =>
                  if !isName name || specialNames.contains (String.ofList name) then
                    reject "Bad function name"
                  pushBack (← readToken steps true true)
                  pure (.definition (String.ofList name) (← command steps))
              | none => reject "Bad function name"
          | token, _, _, _ =>
              pushBack token
              pure (.simple line assignments words redirections)

end

def nextCommands : Reading (Option Command) := do
  let source ← get
  let unfolded := (source.aliases.map (·.2.length)).foldl (· + ·) 0
  let steps := (16 * source.text.length + 64) * (unfolded + 1)
  match ← readToken steps false true with
  | .finish => pure none
  | token =>
      pushBack token
      let commands ← commandList steps .line
      passHeld
      pure (some commands)

end Stubwright.Shell
