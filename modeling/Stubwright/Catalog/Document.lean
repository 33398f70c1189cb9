import Stubwright.Declaration
import Stubwright.Json.Record
import Stubwright.Json.Writer

/-!
Catalog documents: declarations as JSON. Types are spelled with binary names, modifiers are lists of
keywords, and every field but a name may be left out. The writer gives every field, in the order in
which the reader takes them from an array.
-/
namespace Stubwright

namespace JavaType

def ofJson : Json → Except Json.Fault JavaType :=
  Json.asParsed fun spelling => (parse spelling).toOption

def toJson (type : JavaType) : Json :=
  .ofString type.binaryName

end JavaType

namespace Modifiers

def ofJson (json : Json) : Except Json.Fault Modifiers := do
  let keywords ← json.asList Json.asString
  match ofKeywords keywords with
  | .ok flags => pure flags
  | .error _ => .error .unexpected

def toJson (flags : Modifiers) : Json :=
  .ofList (flags.keywords.map .ofString)

end Modifiers

namespace Constructor

def fields : List (Json.Field Constructor) :=
  [ .optional "parameters" (Json.asList JavaType.ofJson)
      fun types constructor => { constructor with parameters := types },
    .optional "exceptions" (Json.asList JavaType.ofJson)
      fun types constructor => { constructor with exceptions := types },
    .optional "modifiers" Modifiers.ofJson
      fun flags constructor => { constructor with modifiers := flags } ]

def ofJson : Json → Except Json.Fault Constructor :=
  Json.asRecord fields { parameters := [], exceptions := [], modifiers := .empty }

def toJson (constructor : Constructor) : Json :=
  .ofMembers
    [ ("parameters", .ofList (constructor.parameters.map JavaType.toJson)),
      ("exceptions", .ofList (constructor.exceptions.map JavaType.toJson)),
      ("modifiers", constructor.modifiers.toJson) ]

end Constructor

namespace Method

def fields : List (Json.Field Method) :=
  [ .needed "name" Json.asString fun name method => { method with name },
    .optional "declaring_type" Json.asString
      fun name method => { method with declaringType := name },
    .optional "return_type" JavaType.ofJson
      fun type method => { method with returnType := type },
    .optional "parameters" (Json.asList JavaType.ofJson)
      fun types method => { method with parameters := types },
    .optional "exceptions" (Json.asList JavaType.ofJson)
      fun types method => { method with exceptions := types },
    .optional "modifiers" Modifiers.ofJson
      fun flags method => { method with modifiers := flags } ]

def ofJson : Json → Except Json.Fault Method :=
  Json.asRecord fields
    { name := "", declaringType := "", returnType := .void, parameters := [], exceptions := [],
      modifiers := .empty }

def toJson (method : Method) : Json :=
  .ofMembers
    [ ("name", .ofString method.name),
      ("declaring_type", .ofString method.declaringType),
      ("return_type", method.returnType.toJson),
      ("parameters", .ofList (method.parameters.map JavaType.toJson)),
      ("exceptions", .ofList (method.exceptions.map JavaType.toJson)),
      ("modifiers", method.modifiers.toJson) ]

end Method

namespace Declaration

def fields : List (Json.Field Declaration) :=
  [ .needed "name" Json.asString fun name declaration => { declaration with name },
    .optional "kind" (Json.asName TypeKind.ofKeyword?)
      fun kind declaration => { declaration with kind },
    .optional "modifiers" Modifiers.ofJson
      fun flags declaration => { declaration with modifiers := flags },
    .optional "superclass" (Json.asOption Json.asString)
      fun superclass declaration => { declaration with superclass },
    .optional "interfaces" (Json.asList Json.asString)
      fun names declaration => { declaration with interfaces := names },
    .optional "constructors" (Json.asList Constructor.ofJson)
      fun constructors declaration => { declaration with constructors },
    .optional "methods" (Json.asList Method.ofJson)
      fun methods declaration => { declaration with methods } ]

def ofJson : Json → Except Json.Fault Declaration :=
  Json.asRecord fields
    { name := "", kind := .classType, modifiers := .empty, superclass := none, interfaces := [],
      constructors := [], methods := [] }

def toJson (declaration : Declaration) : Json :=
  .ofMembers
    [ ("name", .ofString declaration.name),
      ("kind", .ofString declaration.kind.keyword),
      ("modifiers", declaration.modifiers.toJson),
      ("superclass", (declaration.superclass.map Json.ofString).getD .null),
      ("interfaces", .ofList (declaration.interfaces.map .ofString)),
      ("constructors", .ofList (declaration.constructors.map Constructor.toJson)),
      ("methods", .ofList (declaration.methods.map Method.toJson)) ]

end Declaration

namespace Catalog

def fields : List (Json.Field (List Declaration)) :=
  [ .optional "types" (Json.asList Declaration.ofJson) fun declarations _ => declarations ]

/-- The declarations of a document, in the order of the text. -/
def declarationsOfJson : Json → Except Json.Fault (List Declaration) :=
  Json.asRecord fields []

def documentOf (declarations : List Declaration) : Json :=
  .ofMembers [("types", .ofList (declarations.map Declaration.toJson))]

end Catalog

end Stubwright
