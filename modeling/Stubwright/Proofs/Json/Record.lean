import Stubwright.Proofs.Json.RoundTrip
import Stubwright.Proofs.Steps

namespace Stubwright.Json

variable {α β : Type}

theorem isPlain_ofList {items : List Json} (plain : ∀ item ∈ items, item.IsPlain) :
    (ofList items).IsPlain := by
  change (Items.ofList items).IsPlain
  induction items with
  | nil => trivial
  | cons item others ih =>
      exact ⟨plain item List.mem_cons_self,
        ih fun other member => plain other (List.mem_cons_of_mem item member)⟩

theorem isPlain_ofMembers {members : List (String × Json)}
    (plain : ∀ member ∈ members, member.2.IsPlain) : (ofMembers members).IsPlain := by
  change (Members.ofList members).IsPlain
  induction members with
  | nil => trivial
  | cons first others ih =>
      exact ⟨plain first List.mem_cons_self,
        ih fun other member => plain other (List.mem_cons_of_mem first member)⟩

theorem asParsed_ofString {parse : String → Option α} {content : String} {value : α}
    (found : parse content = some value) : asParsed parse (ofString content) = .ok value := by
  rw [asParsed, ofString, asString, ok_bind, found]
  rfl

theorem exists_of_asParsed {parse : String → Option α} {json : Json} {value : α}
    (found : asParsed parse json = .ok value) : ∃ content, parse content = some value := by
  obtain ⟨content, -, found⟩ := ok_of_bind found
  cases parsed : parse content with
  | none =>
      rw [parsed] at found
      cases found
  | some other =>
      rw [parsed] at found
      cases found
      exact ⟨content, parsed⟩

theorem asList_ofList {read : Json → Except Fault α} {toJson : α → Json} {items : List α}
    (each : ∀ item ∈ items, read (toJson item) = .ok item) :
    asList read (ofList (items.map toJson)) = .ok items := by
  change (Items.ofList (items.map toJson)).asList read = .ok items
  induction items with
  | nil => rfl
  | cons item others ih =>
      have first := each item List.mem_cons_self
      have rest := ih fun other member => each other (List.mem_cons_of_mem item member)
      rw [List.map_cons, Items.ofList, Items.asList, first, rest]
      rfl

theorem exists_of_asList {read : Json → Except Fault α} {json : Json} {items : List α}
    (found : asList read json = .ok items) : ∀ item ∈ items, ∃ json, read json = .ok item := by
  cases json with
  | array parts =>
      change parts.asList read = .ok items at found
      induction items generalizing parts with
      | nil => simp
      | cons item others ih =>
          cases parts with
          | closed | broken _ => cases found
          | item first rest =>
              obtain ⟨value, given, found⟩ := ok_of_bind found
              obtain ⟨values, tail, found⟩ := ok_of_bind found
              cases found
              intro other member
              rcases List.mem_cons.mp member with rfl | member
              · exact ⟨first, given⟩
              · exact ih rest tail other member
  | _ => cases found

def membersOf (fields : List (Field α)) (values : List Json) : List (String × Json) :=
  List.zipWith (fun field value => (field.name, value)) fields values

def readFields : List (Field α) → List Json → α → Except Fault α
  | field :: fields, value :: values, record => do
      let record ← field.read value record
      readFields fields values record
  | _, _, record => .ok record

theorem asRecord_member {fields : List (Field α)} {field : Field α} {seen : List String}
    (found : fields.find? (·.name == field.name) = some field)
    (fresh : seen.contains field.name = false) (value : Json) (others : Members) (record : α) :
    (Members.member (.ok field.name) value others).asRecord fields seen record =
      field.read value record >>= others.asRecord fields (field.name :: seen) := by
  rw [Members.asRecord, ok_bind, found]
  simp only [fresh, Bool.false_eq_true, if_false]

/-- A field that no earlier one shares its name with is the one that its name finds, and it has not
been seen. -/
theorem found_fresh_of_nodup {done rest : List (Field α)} {field : Field α}
    (distinct : ((done ++ field :: rest).map Field.name).Nodup) :
    (done ++ field :: rest).find? (·.name == field.name) = some field ∧
      (done.map Field.name).reverse.contains field.name = false := by
  have unseen : ∀ earlier ∈ done, earlier.name ≠ field.name := by
    intro earlier member same
    rw [List.map_append, List.nodup_append] at distinct
    exact distinct.2.2 earlier.name (List.mem_map_of_mem member) field.name List.mem_cons_self same
  constructor
  · have passed : done.find? (·.name == field.name) = none := by simpa using unseen
    simp [List.find?_append, passed]
  · simpa using unseen

theorem asRecord_closed (fields : List (Field α)) (record : α) :
    Members.closed.asRecord fields (fields.map Field.name).reverse record = .ok record := by
  have allSeen : fields.any (fun field =>
      field.required && !(fields.map Field.name).reverse.contains field.name) = false := by
    rw [List.any_eq_false]
    intro field member
    have seen : field.name ∈ fields.map Field.name := List.mem_map_of_mem member
    simp [seen]
  rw [Members.asRecord, allSeen, if_neg Bool.false_ne_true]

/-- The object reads on after some fields, whose names are the ones seen. -/
theorem asRecord_run (done rest : List (Field α)) (values : List Json) (record : α)
    (distinct : ((done ++ rest).map Field.name).Nodup) (full : values.length = rest.length) :
    (Members.ofList (membersOf rest values)).asRecord (done ++ rest)
        (done.map Field.name).reverse record =
      readFields rest values record := by
  induction rest generalizing done values record with
  | nil =>
      obtain rfl : values = [] := List.length_eq_zero_iff.mp full
      rw [List.append_nil]
      exact asRecord_closed done record
  | cons field rest ih =>
      cases values with
      | nil => simp at full
      | cons value values =>
          obtain ⟨found, fresh⟩ := found_fresh_of_nodup distinct
          have shifted : done ++ field :: rest = (done ++ [field]) ++ rest := by simp
          have next := fun read => ih (done ++ [field]) values read (shifted ▸ distinct)
            (by simpa using full)
          have names : ((done ++ [field]).map Field.name).reverse =
              field.name :: (done.map Field.name).reverse := by simp
          change (Members.member (.ok field.name) value
            (Members.ofList (membersOf rest values))).asRecord _ _ record = _
          rw [asRecord_member found fresh, readFields]
          rw [← shifted, names] at next
          cases field.read value record with
          | error _ => rfl
          | ok read => exact next read

theorem asRecord_ofMembers {fields : List (Field α)} {values : List Json} (record : α)
    (distinct : (fields.map Field.name).Nodup) (full : values.length = fields.length) :
    asRecord fields record (ofMembers (membersOf fields values)) =
      readFields fields values record :=
  asRecord_run [] fields values record distinct full

def Field.Keeps (property : α → Prop) (field : Field α) : Prop :=
  ∀ json record result, property record → field.read json record = .ok result → property result

theorem Field.keeps_of_set {property : α → Prop} {read : Json → Except Fault β} {set : β → α → α}
    (name : String) (required : Bool)
    (sets : ∀ json value record, read json = .ok value → property record →
      property (set value record)) :
    Field.Keeps property ⟨name, required, fun json record => (read json).map (set · record)⟩ := by
  intro json record result start found
  obtain ⟨value, given, rfl⟩ := ok_of_map found
  exact sets json value record given start

theorem Members.asRecord_keeps {property : α → Prop} {fields : List (Field α)}
    (keeps : ∀ field ∈ fields, field.Keeps property) (members : Members) {seen : List String}
    {record result : α} (start : property record)
    (found : members.asRecord fields seen record = .ok result) : property result := by
  match members with
  | .closed =>
      rw [asRecord] at found
      split at found
      · cases found
      · cases found
        exact start
  | .broken _ => cases found
  | .member key value rest =>
      rw [asRecord] at found
      obtain ⟨name, -, found⟩ := ok_of_bind found
      split at found
      · split at found
        · cases found
        · exact rest.asRecord_keeps keeps start found
      · rename_i field known
        split at found
        · cases found
        · obtain ⟨next, read, found⟩ := ok_of_bind found
          have kept := keeps field (List.mem_of_find?_eq_some known) value record next start read
          exact rest.asRecord_keeps keeps kept found

theorem Items.asRecord_keeps {property : α → Prop} {fields : List (Field α)}
    (keeps : ∀ field ∈ fields, field.Keeps property) (items : Items)
    {record result : α} (start : property record)
    (found : items.asRecord fields record = .ok result) : property result := by
  match items with
  | .closed =>
      rw [asRecord] at found
      split at found
      · cases found
      · cases found
        exact start
  | .broken _ =>
      rw [asRecord] at found
      cases found
  | .item first rest =>
      cases fields with
      | nil => cases found
      | cons field fields =>
          obtain ⟨next, read, found⟩ := ok_of_bind found
          have kept := keeps field List.mem_cons_self first record next start read
          exact rest.asRecord_keeps
            (fun other member => keeps other (List.mem_cons_of_mem field member)) kept found

theorem asRecord_keeps {property : α → Prop} {fields : List (Field α)}
    (keeps : ∀ field ∈ fields, field.Keeps property) {json : Json} {record result : α}
    (start : property record) (found : asRecord fields record json = .ok result) :
    property result := by
  cases json with
  | object members => exact members.asRecord_keeps keeps start found
  | array items => exact items.asRecord_keeps keeps start found
  | _ => cases found

end Stubwright.Json
