import Stubwright.Json.Record
import Stubwright.Json.Writer
import Stubwright.Proofs.Json.Text

/-!
Reading back the values that `write` writes, for values made of null, strings, arrays and objects.
Each lemma allows for any text behind the value, and for any number of steps from three times the
length of the written text on.
-/
namespace Stubwright.Json

mutual

/-- A value without a fault in it, and without numbers and truth values. -/
def IsPlain : Json → Prop
  | null => True
  | text (.ok _) => True
  | array items => items.IsPlain
  | object members => members.IsPlain
  | _ => False

def Items.IsPlain : Items → Prop
  | .closed => True
  | .item first rest => first.IsPlain ∧ rest.IsPlain
  | .broken _ => False

def Members.IsPlain : Members → Prop
  | .closed => True
  | .member (.ok _) value rest => value.IsPlain ∧ rest.IsPlain
  | _ => False

end

/-- What starts with a visible character is not touched by skipping blanks. -/
theorem skipSpace_cons {c : Char} (visible : isSpace c = false) (rest : List Char) :
    skipSpace (c :: rest) = c :: rest := by
  simp [skipSpace, visible]

/-- A value starts with a visible character, and an array can tell it from its closing bracket. -/
theorem write_eq_cons {value : Json} (plain : value.IsPlain) :
    ∃ c rest, write value = c :: rest ∧ isSpace c = false ∧ c ≠ ']' := by
  cases value with
  | null => exact ⟨'n', _, rfl, rfl, by decide⟩
  | bool _ => exact plain.elim
  | number _ => exact plain.elim
  | text content =>
      cases content with
      | ok content => exact ⟨'"', _, rfl, rfl, by decide⟩
      | error _ => exact plain.elim
  | array items => exact ⟨'[', _, rfl, rfl, by decide⟩
  | object members => exact ⟨'\x7b', _, rfl, rfl, by decide⟩
  | broken _ _ _ => exact plain.elim

theorem readText_writeText_tail (content : String) (rest : List Char) :
    ∃ tail, writeText content ++ rest = '"' :: tail ∧ readText tail = .closed (.ok content) rest :=
  ⟨content.toList.flatMap writeChar ++ '"' :: rest, by simp [writeText],
    readText_writeText content rest⟩

/-- What the readers do to written text within a number of steps. Three steps go by for each
character, which pays for the two more that a bracket needs before its first part. -/
structure ReadsBack (fuel : Nat) : Prop where
  value : ∀ value, IsPlain value → ∀ rest, 3 * (write value).length ≤ fuel →
    readValue fuel (write value ++ rest) = (value, some rest)
  firstItem : ∀ items, Items.IsPlain items → ∀ rest,
    3 * (writeItems true items).length + 2 ≤ fuel →
      readFirstItem fuel (writeItems true items ++ rest) = (items, some rest)
  item : ∀ first others, IsPlain first → Items.IsPlain others → ∀ rest,
    3 * ((write first).length + (writeItems false others).length) + 1 ≤ fuel →
      readItem fuel (write first ++ (writeItems false others ++ rest)) =
        (.item first others, some rest)
  firstMember : ∀ members, Members.IsPlain members → ∀ rest,
    3 * (writeMembers true members).length + 2 ≤ fuel →
      readFirstMember fuel (writeMembers true members ++ rest) = (members, some rest)
  member : ∀ key value others, IsPlain value → Members.IsPlain others → ∀ rest,
    3 * ((writeText key).length + (write value).length + (writeMembers false others).length) + 1 ≤
        fuel →
      readMember fuel
          (writeText key ++ (':' :: (write value ++ (writeMembers false others ++ rest)))) =
        (.member (.ok key) value others, some rest)

theorem length_write_pos {value : Json} (plain : value.IsPlain) : 0 < (write value).length := by
  obtain ⟨c, rest, front, -⟩ := write_eq_cons plain
  simp [front]

theorem writeMembers_member (isFirst : Bool) (key : String) (value : Json) (others : Members) :
    writeMembers isFirst (.member (.ok key) value others) =
      (if isFirst then [] else [',']) ++
        (writeText key ++ (':' :: (write value ++ writeMembers false others))) := by
  rw [writeMembers]
  simp [Except.map, Except.toOption]

variable {fuel : Nat}

theorem readValue_step (reads : ReadsBack fuel) {value : Json} (plain : value.IsPlain)
    (rest : List Char) (enough : 3 * (write value).length ≤ fuel + 1) :
    readValue (fuel + 1) (write value ++ rest) = (value, some rest) := by
  cases value with
  | null => rfl
  | bool _ | number _ | broken _ _ _ => exact plain.elim
  | text content =>
      cases content with
      | error _ => exact plain.elim
      | ok content =>
          obtain ⟨tail, spelled, read⟩ := readText_writeText_tail content rest
          rw [write, spelled, readValue, skipSpace_cons rfl]
          simp only [read]
  | array items =>
      rw [write, List.length_cons] at enough
      have read := reads.firstItem items plain rest (by omega)
      rw [write, List.cons_append, readValue, skipSpace_cons rfl]
      simp only [read]
  | object members =>
      rw [write, List.length_cons] at enough
      have read := reads.firstMember members plain rest (by omega)
      rw [write, List.cons_append, readValue, skipSpace_cons rfl]
      simp only [read]

theorem readFirstItem_step (reads : ReadsBack fuel) {items : Items} (plain : items.IsPlain)
    (rest : List Char) (enough : 3 * (writeItems true items).length + 2 ≤ fuel + 1) :
    readFirstItem (fuel + 1) (writeItems true items ++ rest) = (items, some rest) := by
  cases items with
  | broken _ => exact plain.elim
  | closed => rfl
  | item first others =>
      obtain ⟨c, front, begun, visible, notClosing⟩ := write_eq_cons plain.1
      simp only [writeItems, if_true, List.nil_append, List.length_append, List.append_assoc]
        at enough ⊢
      have read := reads.item first others plain.1 plain.2 rest (by omega)
      rw [begun, List.cons_append] at read ⊢
      rw [readFirstItem, skipSpace_cons visible]
      simpa [notClosing] using read

theorem readItem_step (reads : ReadsBack fuel) {first : Json} {others : Items}
    (plain : first.IsPlain) (plains : others.IsPlain) (rest : List Char)
    (enough : 3 * ((write first).length + (writeItems false others).length) + 1 ≤ fuel + 1) :
    readItem (fuel + 1) (write first ++ (writeItems false others ++ rest)) =
      (.item first others, some rest) := by
  have read := reads.value first plain (writeItems false others ++ rest) (by omega)
  rw [readItem, read]
  cases others with
  | broken _ => exact plains.elim
  | closed => rfl
  | item second others =>
      have positive := length_write_pos plain
      simp only [writeItems, Bool.false_eq_true, if_false, List.length_append, List.append_assoc,
        List.length_cons, List.length_nil] at enough
      have next := reads.item second others plains.1 plains.2 rest (by omega)
      simp only [writeItems, Bool.false_eq_true, if_false, List.append_assoc, List.cons_append,
        List.nil_append, skipSpace_cons (show isSpace ',' = false from rfl), next]

theorem readFirstMember_step (reads : ReadsBack fuel) {members : Members}
    (plain : members.IsPlain) (rest : List Char)
    (enough : 3 * (writeMembers true members).length + 2 ≤ fuel + 1) :
    readFirstMember (fuel + 1) (writeMembers true members ++ rest) = (members, some rest) := by
  match members with
  | .broken _ => exact plain.elim
  | .closed => rfl
  | .member (.error _) _ _ => exact plain.elim
  | .member (.ok key) value others =>
      rw [writeMembers_member] at enough ⊢
      simp only [if_true, List.nil_append, List.length_append, List.length_cons,
        List.append_assoc, List.cons_append] at enough ⊢
      have read := reads.member key value others plain.1 plain.2 rest (by omega)
      obtain ⟨tail, begun, -⟩ := readText_writeText_tail key
        (':' :: (write value ++ (writeMembers false others ++ rest)))
      rw [begun] at read ⊢
      rw [readFirstMember, skipSpace_cons rfl]
      exact read

theorem readMember_step (reads : ReadsBack fuel) (key : String) {value : Json} {others : Members}
    (plain : value.IsPlain) (plains : others.IsPlain) (rest : List Char)
    (enough : 3 * ((writeText key).length + (write value).length +
      (writeMembers false others).length) + 1 ≤ fuel + 1) :
    readMember (fuel + 1)
        (writeText key ++ (':' :: (write value ++ (writeMembers false others ++ rest)))) =
      (.member (.ok key) value others, some rest) := by
  obtain ⟨tail, spelled, text⟩ := readText_writeText_tail key
    (':' :: (write value ++ (writeMembers false others ++ rest)))
  have read := reads.value value plain (writeMembers false others ++ rest) (by omega)
  rw [spelled, readMember, skipSpace_cons rfl]
  simp only [text, skipSpace_cons (show isSpace ':' = false from rfl), read]
  match others with
  | .broken _ => exact plains.elim
  | .closed => rfl
  | .member (.error _) _ _ => exact plains.elim
  | .member (.ok second) next others =>
      rw [writeMembers_member] at enough ⊢
      simp only [Bool.false_eq_true, if_false, List.length_append, List.length_cons,
        List.length_nil] at enough
      have next := reads.member second next others plains.1 plains.2 rest (by omega)
      simp only [Bool.false_eq_true, if_false, List.append_assoc, List.cons_append,
        List.nil_append, skipSpace_cons (show isSpace ',' = false from rfl), next]

theorem readsBack (fuel : Nat) : ReadsBack fuel := by
  induction fuel with
  | zero =>
      constructor
      · intro value plain rest enough
        have positive := length_write_pos plain
        omega
      all_goals
        intros
        omega
  | succ fuel reads =>
      exact
        { value := fun _ plain => readValue_step reads plain
          firstItem := fun _ plain => readFirstItem_step reads plain
          item := fun _ _ plain plains => readItem_step reads plain plains
          firstMember := fun _ plain => readFirstMember_step reads plain
          member := fun key _ _ plain plains => readMember_step reads key plain plains }

theorem ofText_write {value : Json} (plain : value.IsPlain) :
    ofText (write value) = (value, false) := by
  have read := (readsBack (3 * (write value).length + 3)).value value plain [] (by omega)
  rw [List.append_nil] at read
  rw [ofText, read]
  rfl

theorem parse_toText {value : Json} (plain : value.IsPlain) (read : Json → Except Fault α) :
    parse read (toText value) = read value := by
  rw [parse, toText, String.toList_ofList, ofText_write plain]
  cases outcome : read value <;> simp [outcome]

end Stubwright.Json
