namespace Stubwright.Shell

structure Glyph where
  char : Char
  isQuoted : Bool
  /-- Whether the character comes from a value that may be split. -/
  isSplit : Bool
deriving DecidableEq, Repr

inductive Element where
  | exactly (c : Char)
  | one
  | many
  | among (isNegated : Bool) (ranges : List (Char × Char))
deriving DecidableEq, Repr

abbrev Pattern := List Element

def classRanges : List Char → List (Char × Char)
  | name =>
      match String.ofList name with
      | "alpha" => [('a', 'z'), ('A', 'Z')]
      | "digit" => [('0', '9')]
      | "alnum" => [('a', 'z'), ('A', 'Z'), ('0', '9')]
      | "upper" => [('A', 'Z')]
      | "lower" => [('a', 'z')]
      | "space" => [('\t', '\r'), (' ', ' ')]
      | "blank" => [('\t', '\t'), (' ', ' ')]
      | "punct" => [('!', '/'), (':', '@'), ('[', '\x60'), ('\x7b', '~')]
      | "xdigit" => [('0', '9'), ('a', 'f'), ('A', 'F')]
      | "print" => [(' ', '~')]
      | "graph" => [('!', '~')]
      | "cntrl" => [('\x00', '\x1f'), ('\x7f', '\x7f')]
      | _ => []

/-- The ranges of a set up to its closing bracket, which is no member unless it is the first. -/
def setRanges : (steps : Nat) → (isFirst : Bool) → List Glyph →
    Option (List (Char × Char) × List Glyph)
  | 0, _, _ => none
  | _, _, [] => none
  | steps + 1, isFirst, glyph :: rest =>
      if glyph.char = ']' && !glyph.isQuoted && !isFirst then some ([], rest)
      else
        let named := rest.drop 1
        let name := named.takeWhile (·.char.isAlpha)
        let behind := named.drop name.length
        if glyph.char = '[' && !glyph.isQuoted && (rest.head?.map (·.char)) = some ':'
            && (behind.take 2).map (·.char) = [':', ']'] then
          (setRanges steps false (behind.drop 2)).map fun (ranges, rest) =>
            (classRanges (name.map (·.char)) ++ ranges, rest)
        else
          match rest with
          | dash :: last :: more =>
              if dash.char = '-' && !dash.isQuoted && !(last.char = ']' && !last.isQuoted) then
                (setRanges steps false more).map fun (ranges, rest) =>
                  ((glyph.char, last.char) :: ranges, rest)
              else
                (setRanges steps false rest).map fun (ranges, rest) =>
                  ((glyph.char, glyph.char) :: ranges, rest)
          | _ =>
              (setRanges steps false rest).map fun (ranges, rest) =>
                ((glyph.char, glyph.char) :: ranges, rest)

def patternFrom : (steps : Nat) → List Glyph → Pattern
  | 0, _ => []
  | _, [] => []
  | steps + 1, glyph :: rest =>
      if glyph.isQuoted then .exactly glyph.char :: patternFrom steps rest
      else
        match glyph.char, rest with
        | '*', rest => .many :: patternFrom steps rest
        | '?', rest => .one :: patternFrom steps rest
        | '\\', next :: rest => .exactly next.char :: patternFrom steps rest
        | '[', rest =>
            let isNegated := match rest with
              | first :: _ => first.char = '!' && !first.isQuoted
              | [] => false
            match setRanges (rest.length + 1) true (if isNegated then rest.drop 1 else rest) with
            | some (ranges, rest) => .among isNegated ranges :: patternFrom steps rest
            | none => .exactly '[' :: patternFrom steps rest
        | c, rest => .exactly c :: patternFrom steps rest

def patternOf (glyphs : List Glyph) : Pattern :=
  patternFrom (glyphs.length + 1) glyphs

namespace Pattern

def covers : Pattern → List Char → Bool
  | [], text => text.isEmpty
  | .many :: pattern, [] => covers pattern []
  | .many :: pattern, c :: text => covers pattern (c :: text) || covers (.many :: pattern) text
  | .one :: pattern, _ :: text => covers pattern text
  | .exactly c :: pattern, d :: text => c == d && covers pattern text
  | .among isNegated ranges :: pattern, c :: text =>
      (ranges.any fun (low, high) => low ≤ c && c ≤ high) != isNegated && covers pattern text
  | _ :: _, [] => false
termination_by pattern text => (text.length, pattern.length)

def firstPiece (text : List Char) : List Char :=
  text.takeWhile (· != '\x00')

/-- A text without the shortest or longest piece at one end that a pattern covers. Of several texts
with zeros between them a pattern only sees one, and what follows a piece that goes at the end of it
goes too. -/
def trim (pattern : Pattern) (atEnd longest : Bool) (text : List Char) : List Char :=
  let places :=
    if atEnd = longest then List.range ((firstPiece text).length + 1)
    else (List.range (text.length + 1)).reverse
  match places.find? fun place =>
    covers pattern (firstPiece (if atEnd then text.drop place else text.take place)) with
  | some place => if atEnd then text.take place else text.drop place
  | none => text

end Pattern

end Stubwright.Shell
