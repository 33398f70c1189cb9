import Stubwright.Member
import Stubwright.Stub.SourceText

/-!
The source code of stubs. A method stub returns a fixed value of its type, a constructor stub hands
its parameters on to the constructor of the superclass. Parameters are named by their position.
-/
namespace Stubwright

/-- The expression that a stub returns for a type; none for a method without a result. -/
def JavaType.defaultValue : JavaType → Option String
  | void => none
  | primitive .boolean => some "false"
  | primitive .long => some "0L"
  | primitive .float => some "0.0f"
  | primitive .double => some "0.0d"
  | primitive .char => some "'\\0'"
  | primitive _ => some "0"
  | array element rank => some s!"new {element.sourceName}[0]{brackets (rank - 1)}"
  | reference _ => some "null"

namespace Stub

def parameterName (index : Nat) : String :=
  s!"p{index}"

/-- The parameters from a position on. Only the last can take a variable number of arguments. -/
def parameterTexts (isVariadic : Bool) : Nat → List JavaType → List String
  | _, [] => []
  | index, [last] =>
      if isVariadic && last.isArray then
        [last.component.sourceName ++ "... " ++ parameterName index]
      else [last.sourceName ++ " " ++ parameterName index]
  | index, first :: rest =>
      (first.sourceName ++ " " ++ parameterName index) :: parameterTexts isVariadic (index + 1) rest

def throwsText (exceptions : List JavaType) : String :=
  if exceptions.isEmpty then ""
  else " throws " ++ ", ".intercalate (exceptions.map JavaType.sourceName)

def signatureText (isVariadic : Bool) (parameters exceptions : List JavaType) : String :=
  "(" ++ ", ".intercalate (parameterTexts isVariadic 0 parameters) ++ ")" ++ throwsText exceptions

def withModifiers (modifiers : Modifiers) (declaration : String) : String :=
  let keywords := modifiers.sourceText
  if keywords.isEmpty then declaration else keywords ++ " " ++ declaration

def block (indent head : String) (statement : Option String) : String :=
  let opened := ((SourceText.start indent).writeLine (head ++ " \x7b").toList).deeper
  let filled :=
    match statement with
    | some statement => opened.writeLine statement.toList
    | none => opened
  (filled.shallower.writeLine ['\x7d']).text

end Stub

def Method.stubModifiers (method : Method) : Modifiers :=
  (method.modifiers.keep .onMethods).remove (.ofList [.abstractMember])

def Method.stub (indent : String) (method : Method) : String :=
  let signature := Stub.signatureText method.isVariadic method.parameters method.exceptions
  let head :=
    Stub.withModifiers method.stubModifiers
      (method.returnType.sourceName ++ " " ++ method.name ++ signature)
  Stub.block indent head (method.returnType.defaultValue.map ("return " ++ · ++ ";"))

def Constructor.stub (indent className : String) (constructor : Constructor) : String :=
  let signature :=
    Stub.signatureText constructor.isVariadic constructor.parameters constructor.exceptions
  let head :=
    Stub.withModifiers (constructor.modifiers.keep .onConstructors) (className ++ signature)
  let arguments := (List.range constructor.arity).map Stub.parameterName
  Stub.block indent head (some ("super(" ++ ", ".intercalate arguments ++ ");"))

end Stubwright
