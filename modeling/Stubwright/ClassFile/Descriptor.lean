import Stubwright.ClassFile.Fault
import Stubwright.JavaType

namespace Stubwright.ClassFile

open Text

def shownTag (tag : Char) : Char :=
  match String.utf8EncodeChar tag with
  | byte :: _ => Char.ofNat byte.toNat
  | [] => tag

def primitiveOfTag? : Char → Option Primitive
  | 'B' => some .byte
  | 'C' => some .char
  | 'D' => some .double
  | 'F' => some .float
  | 'I' => some .int
  | 'J' => some .long
  | 'S' => some .short
  | 'Z' => some .boolean
  | _ => none

/-- The name that a class file spells with slashes. -/
def binaryNameOf (internal : List Char) : String :=
  String.ofList (swap '/' '.' internal)

/-- The type at the front of a descriptor, with the text after it. -/
def typeAt : List Char → Except DescriptorFault (JavaType × List Char)
  | [] => .error .truncated
  | tag :: rest =>
      if tag = '[' then
        match typeAt rest with
        | .error fault => .error fault
        | .ok (element, after) => .ok (element.arrayOf 1, after)
      else if tag = 'L' then
        match rest.dropWhile (· ≠ ';') with
        | [] => .error .unterminatedReference
        | _ :: after => .ok (.reference (binaryNameOf (rest.takeWhile (· ≠ ';'))), after)
      else
        match primitiveOfTag? tag with
        | some kind => .ok (.primitive kind, rest)
        | none => .error (.unexpectedTag (shownTag tag))

theorem typeAt_shorter {text after : List Char} {type : JavaType}
    (found : typeAt text = .ok (type, after)) : after.length < text.length := by
  induction text generalizing type after with
  | nil => simp [typeAt] at found
  | cons tag rest ih =>
      simp only [typeAt] at found
      split at found
      · split at found
        · simp at found
        · rename_i element _ inner
          simp only [Except.ok.injEq, Prod.mk.injEq] at found
          obtain ⟨_, rfl⟩ := found
          have := ih inner
          simp; omega
      · split at found
        · split at found
          · simp at found
          · rename_i _ semicolon tail ended
            simp only [Except.ok.injEq, Prod.mk.injEq] at found
            obtain ⟨_, rfl⟩ := found
            have := (List.dropWhile_sublist (l := rest) (· ≠ ';')).length_le
            rw [ended] at this
            simp at this ⊢; omega
        · split at found
          · simp only [Except.ok.injEq, Prod.mk.injEq] at found
            obtain ⟨_, rfl⟩ := found
            simp
          · simp at found

/-- The types up to the closing parenthesis, with the text after it. -/
def parametersAt (text : List Char) : Except DescriptorFault (List JavaType × List Char) :=
  match text with
  | [] => .error .truncated
  | c :: rest =>
      if c = ')' then .ok ([], rest)
      else
        match _ : typeAt (c :: rest) with
        | .error fault => .error fault
        | .ok (type, after) =>
            match parametersAt after with
            | .error fault => .error fault
            | .ok (types, after) => .ok (type :: types, after)
termination_by text.length
decreasing_by exact typeAt_shorter (by assumption)

def returnTypeAt : List Char → Except DescriptorFault (JavaType × List Char)
  | 'V' :: rest => .ok (.void, rest)
  | text => typeAt text

def methodTypes (descriptor : List Char) : Except DescriptorFault (List JavaType × JavaType) :=
  match descriptor with
  | [] => .error .truncated
  | c :: rest =>
      if c = '(' then do
        let (parameters, rest) ← parametersAt rest
        let (returnType, rest) ← returnTypeAt rest
        if rest.isEmpty then .ok (parameters, returnType)
        else .error (.surplus (String.ofList descriptor))
      else .error .missingOpening

def tagOf : Primitive → Char
  | .boolean => 'Z'
  | .byte => 'B'
  | .char => 'C'
  | .short => 'S'
  | .int => 'I'
  | .long => 'J'
  | .float => 'F'
  | .double => 'D'

def descriptor : JavaType → List Char
  | .void => ['V']
  | .primitive kind => [tagOf kind]
  | .reference name => 'L' :: swap '.' '/' name.toList ++ [';']
  | .array element rank => List.replicate rank '[' ++ descriptor element

def methodDescriptor (parameters : List JavaType) (returnType : JavaType) : List Char :=
  '(' :: parameters.flatMap descriptor ++ ')' :: descriptor returnType

theorem primitiveOfTag?_tagOf (kind : Primitive) : primitiveOfTag? (tagOf kind) = some kind := by
  cases kind <;> rfl

end Stubwright.ClassFile
