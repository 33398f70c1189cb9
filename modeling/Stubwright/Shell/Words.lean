import Stubwright.Shell.Source

namespace Stubwright.Shell

inductive Context where
  | bare
  | quotes (inDocument : Bool)
  | braces (isQuoted inDocument : Bool)
  | formula (depth : Nat) (inDocument : Bool)
  | document
deriving DecidableEq, Repr

namespace Context

/-- Whether everything counts as quoted except for values. -/
def isQuoted : Context → Bool
  | bare => false
  | braces isQuoted _ => isQuoted
  | quotes _ | formula .. | document => true

def inDocument : Context → Bool
  | document => true
  | quotes inDocument | braces _ inDocument | formula _ inDocument => inDocument
  | bare => false

def isClosedBy (context : Context) (c : Char) : Bool :=
  match context with
  | quotes _ => c = '"'
  | braces .. => c = '\x7d'
  | _ => false

/-- Whether double quotes stand for themselves. -/
def keepsQuotes : Context → Bool
  | document | formula .. => true
  | _ => false

def isEscapable (context : Context) (c : Char) : Bool :=
  ['\\', '\x60', '$'].contains c || (c = '"' && context != document) ||
    (c = '\x7d' && context.isQuoted && context.isClosedBy c)

def isPlain (context : Context) (c : Char) : Bool :=
  !"\\'\"\x7d$\x60()\n".toList.contains c && !(context = bare && isOperator c)

end Context

/-- The text of an old-fashioned command substitution, up to the closing mark. -/
def takeBackquoted (isQuoted : Bool) : (steps : Nat) → Reading (List Char)
  | 0 => reject "EOF in backquote substitution"
  | steps + 1 => do
      match ← peek with
      | none => reject "EOF in backquote substitution"
      | some '\x60' =>
          skip
          pure []
      | some '\\' =>
          skip
          let c ← take
          let isDropped := match c with
            | some c => ['\\', '\x60', '$'].contains c || (isQuoted && c = '"')
            | none => false
          let front := (if isDropped then [] else ['\\']) ++ c.toList
          pure (front ++ (← takeBackquoted isQuoted steps))
      | some c =>
          skip
          pure (c :: (← takeBackquoted isQuoted steps))

def readApart (line : Nat) (reading : Reading α) (text : List Char) : Reading α := fun source =>
  match reading { Source.ofText text with line, aliases := source.aliases } with
  | .ok (value, _) => .ok (value, source)
  | .error fault => .error fault

/-- A word is cut short by the end of the script, or of a text that it brings along. -/
def unfinished : Context → Reading Word
  | .bare | .document => pure []
  | .quotes false | .braces true false => reject "Unterminated quoted string"
  | .quotes true | .braces .. => reject "Missing '\x7d'"
  | .formula .. => reject "Missing '))'"

def parameterName (steps : Nat) : Reading (Option String × Bool) := do
  match ← peek with
  | none => pure (none, false)
  | some '#' =>
      skip
      match ← peek with
      | some c =>
          if isNameStart c then pure (some (String.ofList (← takeName isNamePart steps)), true)
          else if c.isDigit then
            pure (some (String.ofList (← takeName Char.isDigit steps)), true)
          else if c = '\x7d' then pure (some "#", false)
          else
            let before ← get
            skip
            if (← peek) = some '\x7d' then
              pure (if isSpecial c then some (String.singleton c) else none, true)
            else
              set before
              pure (some "#", false)
      | none => pure (some "#", false)
  | some c =>
      if isNameStart c then pure (some (String.ofList (← takeName isNamePart steps)), false)
      else if c.isDigit then pure (some (String.ofList (← takeName Char.isDigit steps)), false)
      else if c = '\x7d' then pure (none, false)
      else
        drop
        pure (if isSpecial c then some (String.singleton c) else none, false)

inductive UseHead where
  | plain
  /-- A word that is not about the parameter follows. -/
  | followed
  | otherwise (fallback : Fallback) (orEmpty : Bool)
  | trimmed (atEnd longest : Bool)
  | senseless
deriving DecidableEq, Repr

def fallbackOf? : Char → Option Fallback
  | '-' => some .use
  | '=' => some .assign
  | '?' => some .complain
  | '+' => some .replace
  | _ => none

def useHead : Reading UseHead := do
  let orEmpty ← takeIf ':'
  match ← peek with
  | none => pure .senseless
  | some c =>
      if c = '\x7d' then
        skip
        pure (if orEmpty then .followed else .plain)
      else if !orEmpty && (c = '%' || c = '#') then
        skip
        pure (.trimmed (c = '%') (← takeIf c))
      else
        drop
        match fallbackOf? c with
        | some fallback => pure (.otherwise fallback orEmpty)
        | none => pure .senseless

/-- Takes a character that stands for itself. Behind a line end a text that the script brings along
may be over. -/
def takeLiteral (context : Context) (c : Char) : Reading Unit := do
  skip
  if c = '\n' && context.inDocument then endAtDelimiter

mutual

def wordParts (script : Reading Command) : (steps : Nat) → Context → Reading Word
  | 0, context => unfinished context
  | steps + 1, context => do
      match ← peek with
      | none => unfinished context
      | some c =>
          if c = '\\' then
            skip
            let content ←
              match ← take with
              | none => pure ['\\']
              | some c =>
                  pure (if context.isQuoted && !context.isEscapable c then ['\\', c] else [c])
            pure (.literal content true :: (← wordParts script steps context))
          else if c = '\'' && !context.isQuoted then
            skip
            let content ← takeAll (· != '\'')
            if !(← takeIf '\'') then reject "Unterminated quoted string"
            pure (.literal content true :: (← wordParts script steps context))
          else if context.isClosedBy c then
            skip
            pure []
          else if c = '"' && !context.keepsQuotes then
            skip
            let inner ← wordParts script steps (.quotes context.inDocument)
            let inner := match inner with
              | [.parameter "@" ..] => inner
              | _ => .literal [] true :: inner
            pure (inner ++ (← wordParts script steps context))
          else if c = '$' then
            skip
            let parts ← substitution script steps context
            pure (parts ++ (← wordParts script steps context))
          else if c = '\x60' then
            skip
            let text ← takeBackquoted context.isQuoted (← get).text.length.succ
            let command ← readApart 1 script text
            pure (.output command context.isQuoted :: (← wordParts script steps context))
          else
            let here (context : Context) (content : List Char) : Reading Word := do
              pure (.literal content context.isQuoted :: (← wordParts script steps context))
            match context with
            | .bare =>
                if isOperator c then pure []
                else if context.isPlain c then here context (← takeAll context.isPlain)
                else
                  skip
                  here context [c]
            | .formula depth inDocument =>
                if c = ')' then
                  skip
                  if depth > 0 then
                    let context := .formula (depth - 1) inDocument
                    pure (.literal [c] true :: (← wordParts script steps context))
                  else if ← takeIf ')' then pure []
                  else here context [c]
                else if c = '(' then
                  skip
                  let context := .formula (depth + 1) inDocument
                  pure (.literal [c] true :: (← wordParts script steps context))
                else if context.isPlain c then here context (← takeAll context.isPlain)
                else
                  takeLiteral context c
                  here context [c]
            | _ =>
                if context.isPlain c then here context (← takeAll context.isPlain)
                else
                  takeLiteral context c
                  here context [c]

def substitution (script : Reading Command) : (steps : Nat) → Context → Reading Word
  | 0, _ => reject "Missing '\x7d'"
  | steps + 1, context => do
      let isQuoted := context.isQuoted
      match ← peek with
      | none => pure [.literal ['$'] isQuoted]
      | some c =>
          if c = '(' then
            skip
            if ← takeIf '(' then
              let formula := Context.formula 0 context.inDocument
              pure [.formula (← wordParts script steps formula) isQuoted]
            else
              let command ← script
              match (← get).pushed with
              | some (.operator ")") =>
                  modify fun source => { source with pushed := none }
                  pure [.output command isQuoted]
              | token =>
                  reject ((token.getD .finish).shown ++ " unexpected (expecting \")\")")
          else if c = '\x7b' then
            skip
            let (name, isLength) ← parameterName (← get).text.length.succ
            let inner := Context.braces isQuoted context.inDocument
            match name, isLength with
            | some name, true =>
                if ← takeIf '\x7d' then pure [.parameter name .length isQuoted]
                else
                  let _ ← wordParts script steps inner
                  pure [.parameter name .senseless isQuoted]
            | some name, false =>
                match ← useHead with
                | .plain => pure [.parameter name .value isQuoted]
                | .followed =>
                    let word ← wordParts script steps inner
                    pure (.parameter name .value isQuoted :: word)
                | .otherwise fallback orEmpty =>
                    let word ← wordParts script steps inner
                    pure [.parameter name (.otherwise fallback orEmpty word) isQuoted]
                | .trimmed atEnd longest =>
                    let word ← wordParts script steps (.braces false context.inDocument)
                    pure [.parameter name (.trimmed atEnd longest word) isQuoted]
                | .senseless =>
                    let _ ← wordParts script steps inner
                    pure [.parameter name .senseless isQuoted]
            | none, _ =>
                let _ ← wordParts script steps inner
                pure [.parameter "" .senseless isQuoted]
          else if isNameStart c then
            let name ← takeName isNamePart (← get).text.length.succ
            pure [.parameter (String.ofList name) .value isQuoted]
          else if isSpecial c then
            skip
            pure [.parameter (String.singleton c) .value isQuoted]
          else pure [.literal ['$'] isQuoted]

end

end Stubwright.Shell
