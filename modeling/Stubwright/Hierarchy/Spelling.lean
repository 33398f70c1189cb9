import Stubwright.Hierarchy.Source

/-!
Names as users write them. A nested type may be written with periods all the way; its binary name
has dollar signs in place of the last of them. The spelling with the fewest that the source knows
wins.
-/
namespace Stubwright

def dollarsFirst : Nat → List Char → List Char
  | 0, text => text
  | _ + 1, [] => []
  | count + 1, c :: rest =>
      if c = '.' then '$' :: dollarsFirst count rest else c :: dollarsFirst (count + 1) rest

def dollarsLast (count : Nat) (text : List Char) : List Char :=
  (dollarsFirst count text.reverse).reverse

/-- Every way to read a name, from the one without a change on. -/
def spellings (name : String) : List String :=
  (List.range (name.toList.count '.' + 1)).map fun count =>
    String.ofList (dollarsLast count name.toList)

def firstKnown (lookup : String → Except Failure (Option Declaration)) :
    List String → Except Failure (Option String)
  | [] => .ok none
  | name :: others =>
      match lookup name with
      | .error failure => .error failure
      | .ok (some _) => .ok (some name)
      | .ok none => firstKnown lookup others

def Source.resolve (source : Source) (name : String) : Except Failure String :=
  match firstKnown source.lookup (spellings name) with
  | .error failure => .error failure
  | .ok (some binaryName) => .ok binaryName
  | .ok none => .error (.notIntrospectable name .unknownType)

end Stubwright
