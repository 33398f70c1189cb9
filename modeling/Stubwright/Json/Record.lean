import Stubwright.Json.Reader

/-!
Reading values of known shape out of JSON. A record is an object with its fields in any order, or an
array of them in their own order; fields that are missing keep what they have, unknown members are
skipped, and a member given twice is refused. All of this goes from left to right, so the first
fault in the text decides.
-/
namespace Stubwright.Json

def asString : Json → Except Fault String
  | text content => content
  | other => .error other.refusal

def asOption (read : Json → Except Fault α) : Json → Except Fault (Option α)
  | null => .ok none
  | other => (read other).map some

def Items.asList (read : Json → Except Fault α) : Items → Except Fault (List α)
  | .closed => .ok []
  | .item first rest => do
      let value ← read first
      let others ← rest.asList read
      pure (value :: others)
  | .broken fault => .error fault

def asList (read : Json → Except Fault α) : Json → Except Fault (List α)
  | array items => items.asList read
  | other => .error other.refusal

def asParsed (parse : String → Option α) (value : Json) : Except Fault α := do
  let content ← value.asString
  match parse content with
  | some parsed => pure parsed
  | none => .error .unexpected

def asNatural (limit : Nat) : Json → Except Fault Nat
  | number (.ok (some natural)) => if natural < limit then .ok natural else .error .unexpected
  | other => .error other.refusal

def asBool : Json → Except Fault Bool
  | bool value => .ok value
  | other => .error other.refusal

/-- One of several names, alone or as the only member of an object whose value is null. -/
def asName (parse : String → Option α) : Json → Except Fault α
  | text content => asParsed parse (text content)
  | object (.member key value rest) => do
      let kind ← asParsed parse (text key)
      match value with
      | null =>
          match rest with
          | .closed => pure kind
          | .broken fault => .error fault
          | .member .. => .error .malformed
      | other => .error other.refusal
  | object (.broken fault) => .error fault
  | broken onRead _ lead =>
      if lead = none || lead = some '"' then .error onRead else .error .malformed
  | _ => .error .malformed

structure Field (α : Type) where
  name : String
  required : Bool
  read : Json → α → Except Fault α

def Field.optional (name : String) (read : Json → Except Fault β) (set : β → α → α) : Field α :=
  ⟨name, false, fun json record => (read json).map (set · record)⟩

def Field.needed (name : String) (read : Json → Except Fault β) (set : β → α → α) : Field α :=
  ⟨name, true, fun json record => (read json).map (set · record)⟩

/-- The record with the fields of an object; `seen` are the names met so far. -/
def Members.asRecord (fields : List (Field α)) (seen : List String) (record : α) :
    Members → Except Fault α
  | .closed =>
      if fields.any (fun field => field.required && !seen.contains field.name) then
        .error .unexpected
      else .ok record
  | .broken fault => .error fault
  | .member key value rest => do
      let name ← key
      match fields.find? (·.name == name) with
      | none =>
          match value.skipFault with
          | some fault => .error fault
          | none => rest.asRecord fields seen record
      | some field =>
          if seen.contains name then .error .unexpected
          else do
            let record ← field.read value record
            rest.asRecord fields (name :: seen) record

/-- The record with its fields in order; those at the end may be missing. -/
def Items.asRecord (fields : List (Field α)) (record : α) : Items → Except Fault α
  | .closed =>
      if fields.any (·.required) then .error .unexpected else .ok record
  | .broken fault => .error fault
  | .item first rest =>
      match fields with
      | [] => .error .malformed
      | field :: fields => do
          let record ← field.read first record
          rest.asRecord fields record

def Items.take : Nat → Items → Items
  | 0, _ => .closed
  | _ + 1, .closed => .closed
  | _ + 1, .broken fault => .broken fault
  | count + 1, .item first rest => .item first (rest.take count)

def asRecord (fields : List (Field α)) (record : α) : Json → Except Fault α
  | object members => members.asRecord fields [] record
  | array items => items.asRecord fields record
  | other => .error other.refusal

def parse (read : Json → Except Fault α) (source : String) : Except Fault α :=
  match ofText source.toList with
  | (value, surplus) =>
      match read value with
      | .error fault => .error fault
      | .ok result => if surplus then .error .malformed else .ok result

end Stubwright.Json
