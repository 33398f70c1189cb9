/-!
JSON values as a text gives them from left to right. A text that is not JSON still has a value,
which breaks off where the text goes wrong: whoever reads the value in the order of the text meets
either a value of the wrong shape or the break, whichever comes first.

Some texts are refused only when their content is asked for: a string with half a surrogate pair,
and a number that is too large. Whoever skips over them does not mind.
-/
namespace Stubwright

inductive Json.Fault where
  | ended
  | malformed
  /-- The text is JSON, but not of the expected shape. -/
  | unexpected
deriving DecidableEq, Repr

mutual

inductive Json where
  | null
  | bool (value : Bool)
  /-- Holds the number if it is written as digits alone. -/
  | number (natural : Except Json.Fault (Option Nat))
  | text (content : Except Json.Fault String)
  | array (items : Json.Items)
  | object (members : Json.Members)
  /-- No value: the faults are those for a reader and for one that skips over the place, and `lead`
  is the character that stands there. -/
  | broken (onRead onSkip : Json.Fault) (lead : Option Char)

inductive Json.Items where
  | closed
  | item (first : Json) (rest : Json.Items)
  | broken (fault : Json.Fault)

inductive Json.Members where
  | closed
  | member (key : Except Json.Fault String) (value : Json) (rest : Json.Members)
  | broken (fault : Json.Fault)

end

namespace Json

instance : Inhabited Json := ⟨.null⟩

/-- The fault of a value that is not of the expected shape: its own fault, if it has one. -/
def refusal : Json → Fault
  | number (.error fault) => fault
  | text (.error fault) => fault
  | broken onRead _ _ => onRead
  | _ => .unexpected

mutual

def skipFault : Json → Option Fault
  | array items => items.skipFault
  | object members => members.skipFault
  | broken _ onSkip _ => some onSkip
  | _ => none

def Items.skipFault : Json.Items → Option Fault
  | .closed => none
  | .item first rest => (Json.skipFault first).or rest.skipFault
  | .broken fault => some fault

def Members.skipFault : Json.Members → Option Fault
  | .closed => none
  | .member _ value rest => (Json.skipFault value).or rest.skipFault
  | .broken fault => some fault

end

def Items.ofList : List Json → Items
  | [] => .closed
  | first :: rest => .item first (ofList rest)

def Members.ofList : List (String × Json) → Members
  | [] => .closed
  | (key, value) :: rest => .member (.ok key) value (ofList rest)

def ofString (content : String) : Json := text (.ok content)

def ofList (items : List Json) : Json := array (.ofList items)

def ofMembers (members : List (String × Json)) : Json := object (.ofList members)

end Json

end Stubwright
