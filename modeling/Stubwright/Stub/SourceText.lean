import Stubwright.Text.Pieces

namespace Stubwright

structure SourceText where
  indent : List Char
  level : Nat
  written : List Char
deriving DecidableEq, Repr

namespace SourceText

def start (indent : String) : SourceText := ⟨indent.toList, 0, []⟩

def indentation (source : SourceText) : List Char :=
  (List.replicate source.level source.indent).flatten

def writeIndent (source : SourceText) : SourceText :=
  { source with written := source.written ++ source.indentation }

def writeLine (source : SourceText) (line : List Char) : SourceText :=
  let lead := if line.isEmpty then [] else source.indentation
  { source with written := source.written ++ lead ++ line ++ ['\n'] }

/-- Writes each line of a text at the current level. -/
def writeLines (source : SourceText) (text : List Char) : SourceText :=
  (Text.lines text).foldl writeLine source

def deeper (source : SourceText) : SourceText :=
  { source with level := source.level + 1 }

/-- One level back; the outermost level stays. -/
def shallower (source : SourceText) : SourceText :=
  { source with level := source.level - 1 }

def text (source : SourceText) : String :=
  String.ofList source.written

end SourceText

end Stubwright
