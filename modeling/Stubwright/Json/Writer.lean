import Stubwright.Json.Text

namespace Stubwright.Json

mutual

def write : Json → List Char
  | null => "null".toList
  | bool true => "true".toList
  | bool false => "false".toList
  | number (.ok (some natural)) => (toString natural).toList
  | number _ => []
  | text (.ok content) => writeText content
  | text (.error _) => []
  | array items => '[' :: writeItems true items
  | object members => '\x7b' :: writeMembers true members
  | broken _ _ _ => []

def writeItems (isFirst : Bool) : Items → List Char
  | .closed => [']']
  | .item first rest => (if isFirst then [] else [',']) ++ write first ++ writeItems false rest
  | .broken _ => []

def writeMembers (isFirst : Bool) : Members → List Char
  | .closed => ['\x7d']
  | .member key value rest =>
      (if isFirst then [] else [',']) ++ (key.map writeText).toOption.getD [] ++
        ':' :: write value ++ writeMembers false rest
  | .broken _ => []

end

def toText (value : Json) : String :=
  String.ofList (write value)

end Stubwright.Json
