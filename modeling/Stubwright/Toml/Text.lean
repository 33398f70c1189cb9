namespace Stubwright.Toml

def isWide (c : Char) : Bool :=
  c.toNat ≥ 0x80

def isBetween (low high : Nat) (c : Char) : Bool :=
  low ≤ c.toNat && c.toNat ≤ high

/-- Characters that a comment may hold. -/
def isPlain (c : Char) : Bool :=
  c = '\t' || isBetween 0x20 0x7e c || isWide c

/-- Characters that stand for themselves between double quotes. -/
def isBasic (c : Char) : Bool :=
  isPlain c && c != '"' && c != '\\'

/-- Characters that stand between single quotes. -/
def isLiteral (c : Char) : Bool :=
  isPlain c && c != '\''

def isBlank (c : Char) : Bool :=
  c = ' ' || c = '\t'

def skipBlanks (text : List Char) : List Char :=
  text.dropWhile isBlank

def newline? : List Char → Option (List Char)
  | '\n' :: rest => some rest
  | '\r' :: '\n' :: rest => some rest
  | _ => none

def skipComment : List Char → List Char
  | '#' :: rest => rest.dropWhile isPlain
  | text => text

def lineEnd (text : List Char) : Option (List Char) :=
  match skipComment (skipBlanks text) with
  | [] => some []
  | text => newline? text

def skipSpace : (steps : Nat) → List Char → List Char
  | 0, text => text
  | steps + 1, text =>
      match skipBlanks text with
      | '#' :: rest => skipSpace steps (rest.dropWhile isPlain)
      | text =>
          match newline? text with
          | some rest => skipSpace steps rest
          | none => text

def hexValue (digits : List Char) : Nat :=
  digits.foldl
    (fun total c =>
      total * 16 +
        (if c.isDigit then c.toNat - '0'.toNat else c.toLower.toNat - 'a'.toNat + 10)) 0

def isHexDigit (c : Char) : Bool :=
  c.isDigit || isBetween 0x61 0x66 c.toLower

def numberedCharacter (count : Nat) (text : List Char) : Option (Char × List Char) :=
  let digits := text.take count
  if digits.length = count && digits.all isHexDigit && (hexValue digits).isValidChar then
    some (Char.ofNat (hexValue digits), text.drop count)
  else none

def escapedCharacter : List Char → Option (Char × List Char)
  | 'b' :: rest => some ('\x08', rest)
  | 't' :: rest => some ('\t', rest)
  | 'n' :: rest => some ('\n', rest)
  | 'f' :: rest => some ('\x0c', rest)
  | 'r' :: rest => some ('\r', rest)
  | '"' :: rest => some ('"', rest)
  | '\\' :: rest => some ('\\', rest)
  | 'u' :: rest => numberedCharacter 4 rest
  | 'U' :: rest => numberedCharacter 8 rest
  | _ => none

def basicString : (steps : Nat) → List Char → Option (List Char × List Char)
  | 0, _ => none
  | _ + 1, [] => none
  | steps + 1, c :: rest =>
      if c = '"' then some ([], rest)
      else if c = '\\' then do
        let (character, rest) ← escapedCharacter rest
        let (content, rest) ← basicString steps rest
        pure (character :: content, rest)
      else if isBasic c then do
        let (content, rest) ← basicString steps rest
        pure (c :: content, rest)
      else none

def literalString (text : List Char) : Option (List Char × List Char) :=
  match text.dropWhile isLiteral with
  | '\'' :: rest => some (text.takeWhile isLiteral, rest)
  | _ => none

def skipBlankLines : List Char → List Char
  | '\n' :: rest => skipBlankLines rest
  | '\r' :: '\n' :: rest => skipBlankLines rest
  | c :: rest => if isBlank c then skipBlankLines rest else c :: rest
  | [] => []

/-- What an escaped line end leaves out: the rest of the line and all space behind it. -/
def skipEscapedLineEnd (text : List Char) : Option (List Char) :=
  (newline? (skipBlanks text)).map skipBlankLines

/-- The quotes that end a string of several lines. Two of them may still belong to the content. -/
def closingQuotes (quote : Char) (text : List Char) : Option (List Char × List Char) :=
  let run := (text.takeWhile (· = quote)).length
  if run < 3 then none
  else
    let surplus := min (run - 3) 2
    some (List.replicate surplus quote, text.drop (3 + surplus))

/-- The content of a string of several lines; `escapes` tells whether a backslash is special. -/
def longString (quote : Char) (escapes : Bool) :
    (steps : Nat) → List Char → Option (List Char × List Char)
  | 0, _ => none
  | _ + 1, [] => none
  | steps + 1, c :: rest =>
      if c = quote then
        match closingQuotes quote (c :: rest) with
        | some ended => some ended
        | none =>
            (longString quote escapes steps rest).map fun (content, rest) => (c :: content, rest)
      else if escapes && c = '\\' then
        match skipEscapedLineEnd rest with
        | some rest => longString quote escapes steps rest
        | none => do
            let (character, rest) ← escapedCharacter rest
            let (content, rest) ← longString quote escapes steps rest
            pure (character :: content, rest)
      else
        match newline? (c :: rest) with
        | some rest =>
            (longString quote escapes steps rest).map fun (content, rest) => ('\n' :: content, rest)
        | none =>
            if isPlain c then
              (longString quote escapes steps rest).map fun (content, rest) => (c :: content, rest)
            else none

/-- A line end right behind the opening quotes does not count. -/
def longStringFrom (quote : Char) (escapes : Bool) (text : List Char) :
    Option (List Char × List Char) :=
  let body := (newline? text).getD text
  longString quote escapes (body.length + 1) body

def stringAtFront : List Char → Option (Option (List Char × List Char))
  | '"' :: '"' :: '"' :: rest => some (longStringFrom '"' true rest)
  | '\'' :: '\'' :: '\'' :: rest => some (longStringFrom '\'' false rest)
  | '"' :: rest => some (basicString (rest.length + 1) rest)
  | '\'' :: rest => some (literalString rest)
  | _ => none

def isBareKey (c : Char) : Bool :=
  c.isAlphanum || c = '_' || c = '-'

def simpleKey : List Char → Option (String × List Char)
  | '"' :: rest =>
      (basicString (rest.length + 1) rest).map fun (content, rest) => (String.ofList content, rest)
  | '\'' :: rest => (literalString rest).map fun (content, rest) => (String.ofList content, rest)
  | text =>
      let name := text.takeWhile isBareKey
      if name.isEmpty then none else some (String.ofList name, text.dropWhile isBareKey)

def dottedKey : (steps : Nat) → List Char → Option (List String × List Char)
  | 0, _ => none
  | steps + 1, text => do
      let (first, rest) ← simpleKey (skipBlanks text)
      match skipBlanks rest with
      | '.' :: rest =>
          let (others, rest) ← dottedKey steps rest
          pure (first :: others, rest)
      | rest => pure ([first], rest)

/-- No key has as many parts, and no value as many levels. -/
def depthLimit : Nat := 80

def keyAtFront (text : List Char) : Option (List String × List Char) :=
  match dottedKey (text.length + 1) text with
  | some (keys, rest) => if keys.length < depthLimit then some (keys, rest) else none
  | none => none

end Stubwright.Toml
